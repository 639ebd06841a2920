import MoonLightBridge.Data.SharedLists
import MoonLightBridge.Data.Update
import MoonLightBridge.Semantics.Transition

/-!
# The event listeners of a connection

`MoonLightClient.subscribe` puts a listener into the list of its event id, and
`removeEventListener`, which the handle calls when it is closed, takes it out again and
drops the list if it is empty. Neither is atomic: a listener that is added to a list just
after that list was found to be empty is lost when the list is dropped. This file shows
that nothing else can go wrong: if no list is dropped that has an element or that somebody
is about to add to, then the reader finds exactly the listeners that are subscribed.

All listeners are different; a listener is named by the number of its subscription. A
handle may be closed more than once, and by several threads at a time.
-/

namespace MoonLightBridge.Client

open SharedLists Transition

/-- A call of `subscribe`. -/
structure Subscription where
  eventId : ℕ
  /-- where the call is; `none` once it has returned the handle -/
  place : Option Adding := some .compute
  deriving DecidableEq, Repr

/-- A call of `close` on the handle of a subscription. -/
structure Unsubscription where
  listener : ℕ
  /-- where the call is; `none` once it has returned -/
  place : Option Removing := some .get
  deriving DecidableEq, Repr

/-- A client and the calls made on it. -/
structure ClientListeners where
  eventListeners : SharedLists ℕ ℕ := .empty
  subscriptions : List Subscription := []
  unsubscriptions : List Unsubscription := []

inductive ListenerLabel where
  | subscribe (eventId : ℕ)
  /-- a call of `subscribe` takes its next step -/
  | subscribing (listener : ℕ)
  /-- the handle of a listener is closed -/
  | close (listener : ℕ)
  /-- a call of `close` takes its next step -/
  | closing (index : ℕ)
  deriving DecidableEq, Repr

namespace ClientListeners

def subscribingStep (s : ClientListeners) (i : ℕ) (sub : Subscription) (place : Adding) :
    ClientListeners :=
  let edited := place.step s.eventListeners sub.eventId i
  { s with
    eventListeners := edited.1
    subscriptions := s.subscriptions.set i { sub with place := edited.2 } }

def closingStep (s : ClientListeners) (j : ℕ) (unsub : Unsubscription) (eventId : ℕ)
    (place : Removing) : ClientListeners :=
  let edited := place.step s.eventListeners eventId unsub.listener
  { s with
    eventListeners := edited.1
    unsubscriptions := s.unsubscriptions.set j { unsub with place := edited.2 } }

def step (s : ClientListeners) : ListenerLabel → Option ClientListeners
  | .subscribe eventId =>
    -- the id 0 is refused, as is a server that sends no events
    if eventId = 0 then none
    else some { s with subscriptions := s.subscriptions ++ [{ eventId }] }
  | .subscribing i =>
    s.subscriptions[i]?.bind fun sub => sub.place.map (subscribingStep s i sub)
  | .close i =>
    s.subscriptions[i]?.bind fun sub =>
      if sub.place = none then
        some { s with unsubscriptions := s.unsubscriptions ++ [{ listener := i }] }
      else none
  | .closing j =>
    s.unsubscriptions[j]?.bind fun unsub =>
      s.subscriptions[unsub.listener]?.bind fun sub =>
        unsub.place.map (closingStep s j unsub sub.eventId)

/-- A call of `subscribe` is about to add to the list `c` of the event. -/
def Pending (s : ClientListeners) (eventId c : ℕ) : Prop :=
  ∃ sub ∈ s.subscriptions, sub.eventId = eventId ∧ sub.place = some (.add c)

/-- Somebody is about to add to the list of the event. -/
def IsAdding (s : ClientListeners) (eventId : ℕ) : Prop :=
  ∃ sub ∈ s.subscriptions, sub.eventId = eventId ∧ ∃ place ∈ sub.place, place ≠ .compute

instance decidableIsAdding (s : ClientListeners) (eventId : ℕ) :
    Decidable (s.IsAdding eventId) :=
  inferInstanceAs (Decidable (∃ sub ∈ s.subscriptions, _))

/-- No list is dropped that has an element, or that somebody is about to add to. -/
def DropsSafely (s : ClientListeners) : ListenerLabel → Prop
  | .closing j => ∀ unsub ∈ s.unsubscriptions[j]?, ∀ sub ∈ s.subscriptions[unsub.listener]?,
      ∀ c ∈ unsub.place.bind Removing.dropping,
        s.eventListeners.SafeToDrop sub.eventId c (s.IsAdding sub.eventId)
  | .subscribe _ | .subscribing _ | .close _ => True

instance decidableDropsSafely (s : ClientListeners) :
    (label : ListenerLabel) → Decidable (s.DropsSafely label)
  | .closing j =>
    inferInstanceAs (Decidable (∀ unsub ∈ s.unsubscriptions[j]?,
      ∀ sub ∈ s.subscriptions[unsub.listener]?, _))
  | .subscribe _ | .subscribing _ | .close _ => isTrue trivial

/-! ### What readers find -/

/-- No call of `close` has removed the listener yet. -/
def IsKept (s : ClientListeners) (i : ℕ) : Prop :=
  ∀ unsub ∈ s.unsubscriptions, unsub.listener = i →
    ∃ place, unsub.place = some place ∧ place.WillRemove

/-- The listener was added and not removed yet. -/
def IsHere (s : ClientListeners) (eventId i : ℕ) : Prop :=
  ∃ sub, s.subscriptions[i]? = some sub ∧ sub.eventId = eventId ∧ sub.place = none ∧ s.IsKept i

/-- A call of `close` is about to remove the listener from the list `c`. -/
def Refs (s : ClientListeners) (i c : ℕ) : Prop :=
  ∃ unsub ∈ s.unsubscriptions, unsub.listener = i ∧ unsub.place = some (.remove c)

/-- The map is what the calls take it for. Some of them may hold further references: the list
`c` of an event, to remove a listener from. -/
structure Consistent (s : ClientListeners) (captured : ℕ → ℕ → ℕ → Prop) : Prop where
  tracks : Tracks s.eventListeners s.IsHere s.Pending fun eventId i c =>
    s.Refs i c ∨ captured eventId i c
  /-- only the handle that was returned can be closed -/
  returned : ∀ unsub ∈ s.unsubscriptions, ∃ sub,
    s.subscriptions[unsub.listener]? = some sub ∧ sub.place = none

variable {s t : ClientListeners} {captured captured' : ℕ → ℕ → ℕ → Prop}

theorem isAdding_iff {eventId : ℕ} : s.IsAdding eventId ↔ ∃ c, s.Pending eventId c := by
  constructor
  · rintro ⟨sub, hsub, hevent, place, hplace, hadd⟩
    cases place with
    | compute => exact absurd rfl hadd
    | add c => exact ⟨c, sub, hsub, hevent, hplace⟩
  · rintro ⟨c, sub, hsub, hevent, hplace⟩
    exact ⟨sub, hsub, hevent, .add c, hplace, SharedLists.Adding.noConfusion⟩

theorem consistent_init : ({} : ClientListeners).Consistent captured := by
  refine ⟨tracks_empty ?_ ?_, fun unsub hunsub => absurd hunsub List.not_mem_nil⟩
  · rintro eventId i ⟨sub, hsub, -⟩
    cases hsub
  · rintro eventId c ⟨sub, hsub, -⟩
    cases hsub

theorem Consistent.mono (h : s.Consistent captured)
    (hcaptured : ∀ e i c, captured' e i c → captured e i c) : s.Consistent captured' := by
  refine ⟨h.tracks.mono (fun _ _ => Iff.rfl) (fun _ _ => id) fun e i c hc _ => .inl ?_, h.returned⟩
  exact hc.imp_right (hcaptured e i c)

variable {i : ℕ} {place : Adding}

/-- A call of `subscribe` that has not returned is the only one to deal with its listener. -/
theorem Consistent.listener_ne (h : s.Consistent captured) {sub : Subscription}
    (hsub : s.subscriptions[i]? = some sub) (hplace : sub.place = some place) :
    ∀ unsub ∈ s.unsubscriptions, unsub.listener ≠ i := by
  rintro unsub hunsub rfl
  obtain ⟨sub', hsub', hreturned⟩ := h.returned unsub hunsub
  obtain rfl := Option.mem_unique hsub hsub'
  rw [hplace] at hreturned
  cases hreturned

theorem Consistent.subscribe (h : s.Consistent captured) (eventId : ℕ) :
    { s with subscriptions := s.subscriptions ++ [{ eventId }] : ClientListeners }.Consistent
      captured := by
  constructor
  · refine h.tracks.mono (fun e i => ?_) (fun e c => ?_) fun e i c hc _ => .inl hc
    · refine exists_congr fun sub => ?_
      rw [List.getElem?_concat_eq_some]
      constructor
      · rintro ⟨hold | ⟨-, rfl⟩, hevent, hplace, hkept⟩
        · exact ⟨hold, hevent, hplace, hkept⟩
        · cases hplace
      · exact fun hhere => ⟨.inl hhere.1, hhere.2⟩
    · rintro ⟨sub, hsub, hevent, hplace⟩
      rcases List.mem_append.mp hsub with hold | hnew
      · exact ⟨sub, hold, hevent, hplace⟩
      · rw [List.mem_singleton.mp hnew] at hplace
        cases hplace
  · intro unsub hunsub
    obtain ⟨sub, hsub, hplace⟩ := h.returned unsub hunsub
    exact ⟨sub, List.getElem?_concat_eq_some.mpr (.inl hsub), hplace⟩

/-- A call of `subscribe` that has not returned moves on. -/
theorem isHere_set_subscription {sub : Subscription} (hsub : s.subscriptions[i]? = some sub)
    (hplace : sub.place = some place) (m : SharedLists ℕ ℕ) (next : Option Adding) (e j : ℕ) :
    IsHere { s with
        eventListeners := m
        subscriptions := s.subscriptions.set i { sub with place := next } } e j ↔
      s.IsHere e j ∨ (e = sub.eventId ∧ j = i ∧ next = none ∧ s.IsKept i) := by
  have hlt := (List.getElem?_eq_some_iff.mp hsub).1
  constructor
  · rintro ⟨sub', hsub', hevent, hnone, hkept⟩
    rcases List.getElem?_set_eq_some hsub hsub' with ⟨rfl, rfl⟩ | hold
    · exact .inr ⟨hevent.symm, rfl, hnone, hkept⟩
    · exact .inl ⟨sub', hold, hevent, hnone, hkept⟩
  · rintro (⟨sub', hsub', hevent, hnone, hkept⟩ | ⟨rfl, rfl, rfl, hkept⟩)
    · have hne : i ≠ j := by
        rintro rfl
        obtain rfl := Option.mem_unique hsub hsub'
        rw [hplace] at hnone
        cases hnone
      exact ⟨sub', (List.getElem?_set_ne hne).trans hsub', hevent, hnone, hkept⟩
    · exact ⟨_, List.getElem?_set_self hlt, rfl, rfl, hkept⟩

theorem Consistent.returned_set (h : s.Consistent captured) {sub sub' : Subscription}
    (hsub : s.subscriptions[i]? = some sub) (hplace : sub.place = some place) :
    ∀ unsub ∈ s.unsubscriptions, ∃ sub'',
      (s.subscriptions.set i sub')[unsub.listener]? = some sub'' ∧ sub''.place = none := by
  intro unsub hunsub
  obtain ⟨sub'', hsub'', hreturned⟩ := h.returned unsub hunsub
  have hne := h.listener_ne hsub hplace unsub hunsub
  exact ⟨sub'', (List.getElem?_set_ne hne.symm).trans hsub'', hreturned⟩

theorem Consistent.subscribing (h : s.Consistent captured) {sub : Subscription}
    (hsub : s.subscriptions[i]? = some sub) (hplace : sub.place = some place)
    (hcaptured : ∀ e j c, captured' e j c → captured e j c ∧ j ≠ i ∨
      e = sub.eventId ∧ j = i ∧ place = .add c) :
    (s.subscribingStep i sub place).Consistent captured' := by
  refine ⟨?_, h.returned_set hsub hplace⟩
  have hothers := h.listener_ne hsub hplace
  cases place with
  | compute =>
    refine h.tracks.compute (fun e j => ?_) (fun e c hpending => ?_) fun e j c hrefs => ?_
    · refine (isHere_set_subscription hsub hplace _ _ e j).trans (or_iff_left ?_)
      rintro ⟨-, -, hnone, -⟩
      cases hnone
    · obtain ⟨sub', hsub', hevent, hadd⟩ := hpending
      rcases List.mem_or_eq_of_mem_set hsub' with hold | rfl
      · exact .inl ⟨sub', hold, hevent, hadd⟩
      · obtain rfl := Adding.add.inj (Option.some_inj.mp hadd)
        exact .inr ⟨hevent.symm, rfl⟩
    · refine hrefs.imp_right fun hnew => ?_
      rcases hcaptured e j c hnew with ⟨hold, -⟩ | ⟨-, -, hadd⟩
      · exact hold
      · cases hadd
  | add c =>
    have hkept : s.IsKept i := fun unsub hunsub heq => absurd heq (hothers unsub hunsub)
    have hlookup : s.eventListeners.lookup sub.eventId = some c :=
      h.tracks.pending sub.eventId c ⟨sub, List.mem_of_getElem? hsub, rfl, hplace⟩
    refine h.tracks.add hlookup (fun e j => ?_) (fun e c' hpending => ?_) fun e j c' hrefs => ?_
    · refine (isHere_set_subscription hsub hplace _ _ e j).trans (or_congr_right ?_)
      exact and_congr_right fun _ => and_iff_left ⟨rfl, hkept⟩
    · obtain ⟨sub', hsub', hevent, hadd⟩ := hpending
      rcases List.mem_or_eq_of_mem_set hsub' with hold | rfl
      · exact ⟨sub', hold, hevent, hadd⟩
      · cases hadd
    · rcases hrefs with ⟨unsub, hunsub, rfl, hremove⟩ | hnew
      · refine .inl ⟨.inl ⟨unsub, hunsub, rfl, hremove⟩, ?_⟩
        exact fun heq => hothers unsub hunsub heq.2
      · rcases hcaptured e j c' hnew with ⟨hold, hne⟩ | ⟨he, -, hadd⟩
        · exact .inl ⟨.inr hold, fun heq => hne heq.2⟩
        · exact .inr ⟨he, (Adding.add.inj hadd).symm⟩

/-! ### Closing handles -/

/-- A handle is closed: the call starts where it looks up the list, or where it holds it. -/
theorem Consistent.close (h : s.Consistent captured) {sub : Subscription}
    (hsub : s.subscriptions[i]? = some sub) (hreturned : sub.place = none) (place : Removing)
    (hwill : place.WillRemove) (hplace : ∀ c, place = .remove c → captured sub.eventId i c) :
    { s with unsubscriptions := s.unsubscriptions ++ [⟨i, some place⟩] :
      ClientListeners }.Consistent captured := by
  constructor
  · refine h.tracks.mono (fun e j => ?_) (fun _ _ => id) fun e j c hrefs hhere => ?_
    · refine exists_congr fun sub' => and_congr_right fun _ => and_congr_right fun _ =>
        and_congr_right fun _ => ⟨fun hkept unsub hunsub => ?_, fun hkept unsub hunsub => ?_⟩
      · exact hkept unsub (List.mem_append_left _ hunsub)
      · exact List.forall_mem_concat hkept (fun _ => ⟨place, rfl, hwill⟩) unsub hunsub
    · rcases hrefs with ⟨unsub, hunsub, hlistener, hremove⟩ | hold
      · rcases List.mem_append.mp hunsub with hold | hnew
        · exact .inl (.inl ⟨unsub, hold, hlistener, hremove⟩)
        · rw [List.mem_singleton.mp hnew] at hlistener hremove
          obtain ⟨sub', hsub', rfl, -⟩ := hhere
          obtain rfl : i = j := hlistener
          obtain rfl := Option.mem_unique hsub hsub'
          exact .inl (.inr (hplace c (Option.some_inj.mp hremove)))
      · exact .inl (.inr hold)
  · exact List.forall_mem_concat h.returned ⟨sub, hsub, hreturned⟩

/-- The call will still remove its listener. -/
def WillRemove (place : Option Removing) : Prop := ∃ p, place = some p ∧ p.WillRemove

variable {next : Option Removing}

/-- A call of `close` moves on without having removed its listener, or having done so before. -/
theorem isHere_set_unsubscription {j : ℕ} {unsub : Unsubscription}
    (hunsub : s.unsubscriptions[j]? = some unsub) (hiff : WillRemove next ↔ WillRemove unsub.place)
    (m : SharedLists ℕ ℕ) (e i : ℕ) :
    IsHere { s with
        eventListeners := m
        unsubscriptions := s.unsubscriptions.set j { unsub with place := next } } e i ↔
      s.IsHere e i := by
  refine exists_congr fun sub => and_congr_right fun _ => and_congr_right fun _ =>
    and_congr_right fun _ => ?_
  exact List.forall_mem_set_iff hunsub (imp_congr_right fun _ => hiff)

/-- A call of `close` removes its listener. -/
theorem isHere_set_removed {j : ℕ} {unsub : Unsubscription}
    (hunsub : s.unsubscriptions[j]? = some unsub) (hwill : WillRemove unsub.place)
    (hnext : ¬ WillRemove next) (m : SharedLists ℕ ℕ) (e i : ℕ) :
    IsHere { s with
        eventListeners := m
        unsubscriptions := s.unsubscriptions.set j { unsub with place := next } } e i ↔
      s.IsHere e i ∧ i ≠ unsub.listener := by
  constructor
  · rintro ⟨sub, hsub, hevent, hreturned, hkept⟩
    refine ⟨⟨sub, hsub, hevent, hreturned, fun other hother heq => ?_⟩, ?_⟩
    · rcases List.eq_or_mem_set hunsub hother with rfl | hstays
      · exact hwill
      · exact hkept other hstays heq
    · rintro rfl
      exact hnext (hkept _ (List.mem_set_self hunsub) rfl)
  · rintro ⟨⟨sub, hsub, hevent, hreturned, hkept⟩, hne⟩
    refine ⟨sub, hsub, hevent, hreturned, fun other hother heq => ?_⟩
    rcases List.mem_or_eq_of_mem_set hother with hold | rfl
    · exact hkept other hold heq
    · exact absurd heq.symm hne

theorem not_willRemove_none : ¬ WillRemove none := by
  rintro ⟨_, heq, -⟩
  cases heq

theorem willRemove_some {place : Removing} : WillRemove (some place) ↔ place.WillRemove := by
  constructor
  · rintro ⟨p, heq, hwill⟩
    exact Option.some_inj.mp heq ▸ hwill
  · exact fun hwill => ⟨place, rfl, hwill⟩

variable {c : ℕ}

/-- The references of the other calls stay. -/
theorem refs_of_set {j : ℕ} {unsub : Unsubscription} (hnext : ∀ c, next ≠ some (.remove c))
    (h : ∃ other ∈ s.unsubscriptions.set j { unsub with place := next },
      other.listener = i ∧ other.place = some (.remove c)) : s.Refs i c := by
  obtain ⟨other, hother, hlistener, hremove⟩ := h
  rcases List.mem_or_eq_of_mem_set hother with hold | rfl
  · exact ⟨other, hold, hlistener, hremove⟩
  · exact absurd hremove (hnext c)

theorem IsHere.eq_eventId {e : ℕ} (h : s.IsHere e i) {sub : Subscription}
    (hsub : s.subscriptions[i]? = some sub) : e = sub.eventId := by
  obtain ⟨sub', hsub', rfl, -⟩ := h
  obtain rfl := Option.mem_unique hsub hsub'
  rfl

section Closing

variable {j : ℕ} {unsub : Unsubscription} {sub : Subscription}

section

variable (h : s.Consistent captured) (hunsub : s.unsubscriptions[j]? = some unsub)

include h hunsub

theorem Consistent.returned_closingStep :
    ∀ other ∈ s.unsubscriptions.set j { unsub with place := next }, ∃ sub,
      s.subscriptions[other.listener]? = some sub ∧ sub.place = none :=
  List.forall_mem_set h.returned (h.returned unsub (List.mem_of_getElem? hunsub))

theorem Consistent.closing_get (hsub : s.subscriptions[unsub.listener]? = some sub)
    (hplace : unsub.place = some .get) :
    (s.closingStep j unsub sub.eventId .get).Consistent captured := by
  have hwill : WillRemove unsub.place := ⟨_, hplace, trivial⟩
  refine ⟨?_, h.returned_closingStep hunsub⟩
  cases hlookup : s.eventListeners.lookup sub.eventId with
  | none =>
    simp only [closingStep, Removing.step, hlookup, Option.map_none]
    refine h.tracks.mono (fun e i => ?_) (fun _ _ => id) fun e i c href _ => .inl ?_
    · -- the event has no list, so the listener is in none
      refine (isHere_set_removed hunsub hwill not_willRemove_none _ e i).trans
        (and_iff_left_of_imp ?_)
      rintro hhere rfl
      have hmem := (h.tracks.mem _ _).mpr hhere
      rw [hhere.eq_eventId hsub, get_eq_nil hlookup] at hmem
      cases hmem
    · refine href.imp_left (refs_of_set fun c => ?_)
      exact (Option.some_ne_none _).symm
  | some c =>
    simp only [closingStep, Removing.step, hlookup, Option.map_some]
    refine h.tracks.mono (fun e i => ?_) (fun _ _ => id) fun e i c' href hhere => ?_
    · refine isHere_set_unsubscription hunsub (iff_of_true ?_ hwill) _ e i
      exact willRemove_some.mpr trivial
    · rcases href with ⟨other, hother, hlistener, hremove⟩ | hold
      · rcases List.mem_or_eq_of_mem_set hother with hold | rfl
        · exact .inl (.inl ⟨other, hold, hlistener, hremove⟩)
        · obtain rfl := Removing.remove.inj (Option.some_inj.mp hremove)
          obtain rfl : unsub.listener = i := hlistener
          rw [hhere.eq_eventId hsub]
          exact .inr hlookup
      · exact .inl (.inr hold)

theorem Consistent.closing_remove (hsub : s.subscriptions[unsub.listener]? = some sub)
    (hplace : unsub.place = some (.remove c)) :
    (s.closingStep j unsub sub.eventId (.remove c)).Consistent captured := by
  refine ⟨?_, h.returned_closingStep hunsub⟩
  have hlookup : s.IsHere sub.eventId unsub.listener →
      s.eventListeners.lookup sub.eventId = some c :=
    h.tracks.refs sub.eventId unsub.listener c
      (.inl ⟨unsub, List.mem_of_getElem? hunsub, rfl, hplace⟩)
  refine h.tracks.remove hlookup (fun e hhere => hhere.eq_eventId hsub) (fun e i => ?_)
    (fun _ _ => id) fun e i c' => Or.imp_left (refs_of_set fun c => ?_)
  · have hnot : ¬ WillRemove (some (.check c)) := willRemove_some.not.mpr id
    refine (isHere_set_removed hunsub ⟨_, hplace, trivial⟩ hnot _ e i).trans ?_
    refine and_congr_right fun hhere => not_congr ⟨?_, And.right⟩
    rintro rfl
    exact ⟨hhere.eq_eventId hsub, rfl⟩
  · rintro ⟨⟩

theorem Consistent.closing_check (hplace : unsub.place = some (.check c)) (eventId : ℕ) :
    (s.closingStep j unsub eventId (.check c)).Consistent captured := by
  refine ⟨?_, h.returned_closingStep hunsub⟩
  have hbefore : ¬ WillRemove unsub.place := by
    rw [hplace]
    exact willRemove_some.not.mpr id
  refine h.tracks.mono (fun e i => ?_) (fun _ _ => id) fun e i c' href _ => .inl ?_
  · refine isHere_set_unsubscription hunsub (iff_of_false ?_ hbefore) _ e i
    simp only [Removing.step]
    split_ifs
    · exact willRemove_some.not.mpr id
    · exact not_willRemove_none
  · refine href.imp_left (refs_of_set fun c => ?_)
    simp only [Removing.step]
    split_ifs <;> rintro ⟨⟩

theorem Consistent.closing_drop (hplace : unsub.place = some (.drop c))
    (hsafe : s.eventListeners.SafeToDrop sub.eventId c (s.IsAdding sub.eventId)) :
    (s.closingStep j unsub sub.eventId (.drop c)).Consistent captured := by
  refine ⟨?_, h.returned_closingStep hunsub⟩
  have hbefore : ¬ WillRemove unsub.place := by
    rw [hplace]
    exact willRemove_some.not.mpr id
  rw [isAdding_iff] at hsafe
  refine h.tracks.drop hsafe (fun e i => ?_) (fun _ _ => id) fun e i c' =>
    Or.imp_left (refs_of_set fun c => ?_)
  · exact isHere_set_unsubscription hunsub (iff_of_false not_willRemove_none hbefore) _ e i
  · rintro ⟨⟩

theorem Consistent.closing (hsub : s.subscriptions[unsub.listener]? = some sub) {place : Removing}
    (hplace : unsub.place = some place)
    (hsafe : ∀ c, place = .drop c →
      s.eventListeners.SafeToDrop sub.eventId c (s.IsAdding sub.eventId)) :
    (s.closingStep j unsub sub.eventId place).Consistent captured := by
  cases place with
  | get => exact h.closing_get hunsub hsub hplace
  | remove c => exact h.closing_remove hunsub hsub hplace
  | check c => exact h.closing_check hunsub hplace sub.eventId
  | drop c => exact h.closing_drop hunsub hplace (hsafe c rfl)

end

end Closing

/-- Every step that drops no list in use keeps the map what the calls take it for. -/
theorem Consistent.step (h : s.Consistent fun _ _ _ => False) {label : ListenerLabel}
    (hguard : s.DropsSafely label) (hstep : step s label = some t) :
    t.Consistent fun _ _ _ => False := by
  cases label with
  | subscribe eventId =>
    obtain ⟨-, hstep⟩ := Option.ite_none_left_eq_some.mp hstep
    cases hstep
    exact h.subscribe eventId
  | subscribing i =>
    obtain ⟨sub, hsub, hstep⟩ := Option.bind_eq_some_iff.mp hstep
    obtain ⟨place, hplace, rfl⟩ := Option.map_eq_some_iff.mp hstep
    exact h.subscribing hsub hplace fun _ _ _ => False.elim
  | close i =>
    obtain ⟨sub, hsub, hstep⟩ := Option.bind_eq_some_iff.mp hstep
    obtain ⟨hreturned, hstep⟩ := Option.ite_none_right_eq_some.mp hstep
    cases hstep
    refine h.close hsub hreturned .get trivial fun c heq => ?_
    cases heq
  | closing j =>
    obtain ⟨unsub, hunsub, hstep⟩ := Option.bind_eq_some_iff.mp hstep
    obtain ⟨sub, hsub, hstep⟩ := Option.bind_eq_some_iff.mp hstep
    obtain ⟨place, hplace, rfl⟩ := Option.map_eq_some_iff.mp hstep
    refine h.closing hunsub hsub hplace fun c heq => ?_
    refine hguard unsub hunsub sub hsub c ?_
    rw [hplace, heq]
    rfl

/-- No call is being made. -/
def IsQuiet (s : ClientListeners) : Prop :=
  (∀ sub ∈ s.subscriptions, sub.place = none) ∧ ∀ unsub ∈ s.unsubscriptions, unsub.place = none

instance decidableIsQuiet (s : ClientListeners) : Decidable s.IsQuiet :=
  inferInstanceAs (Decidable (_ ∧ _))

/-- The listener was subscribed, and its handle was not closed. -/
def IsSubscribed (s : ClientListeners) (eventId i : ℕ) : Prop :=
  ∃ sub ∈ s.subscriptions[i]?, sub.eventId = eventId ∧
    ∀ unsub ∈ s.unsubscriptions, unsub.listener ≠ i

instance decidableIsSubscribed (s : ClientListeners) (eventId i : ℕ) :
    Decidable (s.IsSubscribed eventId i) :=
  inferInstanceAs (Decidable (∃ sub ∈ s.subscriptions[i]?, _))

theorem isHere_iff_of_isQuiet (h : s.IsQuiet) {e : ℕ} : s.IsHere e i ↔ s.IsSubscribed e i := by
  refine exists_congr fun sub => and_congr_right fun hsub => and_congr_right fun _ => ?_
  constructor
  · rintro ⟨-, hkept⟩ unsub hunsub heq
    have hwill : WillRemove unsub.place := hkept unsub hunsub heq
    rw [h.2 unsub hunsub] at hwill
    exact not_willRemove_none hwill
  · intro hnone
    exact ⟨h.1 sub (List.mem_of_getElem? hsub),
      fun unsub hunsub heq => absurd heq (hnone unsub hunsub)⟩

theorem mem_get_iff_of_run {w : List ListenerLabel}
    (hmeets : MeetsGuard step DropsSafely {} w) (hrun : run step {} w = some t)
    (hquiet : t.IsQuiet) (e i : ℕ) : i ∈ t.eventListeners.get e ↔ t.IsSubscribed e i := by
  have hconsistent : t.Consistent fun _ _ _ => False :=
    hmeets.invariant (I := fun s => s.Consistent fun _ _ _ => False)
      (fun hguard h hstep => h.step hguard hstep) hrun consistent_init
  rw [hconsistent.tracks.mem, isHere_iff_of_isQuiet hquiet]

end ClientListeners

end MoonLightBridge.Client
