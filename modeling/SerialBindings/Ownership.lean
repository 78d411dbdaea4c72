-- Who owns each listener. A call makes it, hands it over to `g_event_listener`,
-- takes it back and destroys it, so at every moment one place at most has it.
-- What is destroyed is not used again, and what nobody has is destroyed.
import SerialBindings.Custody
import SerialBindings.Places
import SerialBindings.Retirement

open programs places

namespace cpp_bindings_windows

/-! ## What a history tells -/

/-- What becomes of a listener in a step: it is made, its notification is ended, its destructor
ends. -/
inductive Fate
  | nothing
  | begins (l : ListenerId)
  | silenced (l : ListenerId)
  | ends (l : ListenerId)

def fateOf : (e : ListenerAction) → ListenerAnswer e → Fate
  | .makeListener, .ok l => .begins l
  | .unregister l, _ => .silenced l
  | .joinable l, false => .ends l
  | .detach l, _ | .join l, _ => .ends l
  | _, _ => .nothing

def Fate.made : Fate → List ListenerId
  | .begins l => [l]
  | _ => []

def Fate.destroyed : Fate → List ListenerId
  | .ends l => [l]
  | _ => []

def fates (ls : List ModuleLabel) : List Fate :=
  ls.map fun
    | .did _ e r => fateOf e r
    | _ => .nothing

/-- The listeners that were made, in this order. -/
def made (ls : List ModuleLabel) : List ListenerId := (fates ls).flatMap Fate.made

/-- The listeners whose destructor has ended, in this order. -/
def destroyed (ls : List ModuleLabel) : List ListenerId := (fates ls).flatMap Fate.destroyed

section Histories

variable (ls : List ModuleLabel) (t : Thread) (c : ModuleCall) (returned : Option Int)
  (e : ListenerAction) (r : ListenerAnswer e)

theorem made_did : made (ls ++ [.did t e r]) = made ls ++ (fateOf e r).made := by
  simp [made, fates]

theorem destroyed_did :
    destroyed (ls ++ [.did t e r]) = destroyed ls ++ (fateOf e r).destroyed := by
  simp [destroyed, fates]

@[simp] theorem made_enter : made (ls ++ [.enter t c]) = made ls := by
  simp [made, fates, Fate.made]

@[simp] theorem made_leave : made (ls ++ [.leave t c returned]) = made ls := by
  simp [made, fates, Fate.made]

@[simp] theorem destroyed_enter : destroyed (ls ++ [.enter t c]) = destroyed ls := by
  simp [destroyed, fates, Fate.destroyed]

@[simp] theorem destroyed_leave : destroyed (ls ++ [.leave t c returned]) = destroyed ls := by
  simp [destroyed, fates, Fate.destroyed]

end Histories

/-- The listener whose notification a step ends. -/
def silences : ModuleLabel → Option ListenerId
  | .did _ (.unregister l) _ => some l
  | _ => none

/-- What Windows promises about `CM_Unregister_Notification`: it waits until the notifications
that it ends have returned. -/
def UnregisterWaits (ls : List ModuleLabel) (_ : EventModule) (step : ModuleLabel) : Prop :=
  ∀ l ∈ silences step, ∀ u c, running ls u = some c → c.role ≠ .notifies l

instance (ls : List ModuleLabel) (w : EventModule) (step : ModuleLabel) :
    Decidable (UnregisterWaits ls w step) :=
  decidable_of_iff (∀ l ∈ silences step, ∀ u ∈ callers ls, ∀ c ∈ running ls u, c.role ≠ .notifies l)
    (forall_congr' fun _ => forall_congr' fun _ => forall_running.symm)

/-! ## The handovers -/

/-- The modules have the same listeners, in the same places, and the same mutexes. -/
structure EventModule.SameHands (w w' : EventModule) : Prop where
  made : w'.made = w.made
  stored : w'.g_event_listener = w.g_event_listener
  holder : w'.holder = w.holder
  registered : ∀ l, (w'.listeners l).registered = (w.listeners l).registered
  ports : ∀ l, (w'.listeners l).ports = (w.listeners l).ports
  joinable : ∀ l, (w'.listeners l).joinable = (w.listeners l).joinable

theorem EventModule.SameHands.rfl {w : EventModule} : w.SameHands w :=
  ⟨Eq.refl _, Eq.refl _, Eq.refl _, fun _ => Eq.refl _, fun _ => Eq.refl _, fun _ => Eq.refl _⟩

theorem EventModule.withState_same (w : EventModule) (l : ListenerId)
    (f : EventListenerState → EventListenerState) : w.SameHands (w.withState l f) where
  made := rfl
  stored := rfl
  holder := rfl
  registered _ := modify_keeps Listener.registered fun _ => rfl
  ports _ := modify_keeps Listener.ports fun _ => rfl
  joinable _ := modify_keeps Listener.joinable fun _ => rfl

theorem EventModule.withUser_same (w : EventModule) (t : Thread) (inUser : Bool) :
    w.SameHands (w.withUser t inUser) :=
  ⟨rfl, rfl, rfl, fun _ => rfl, fun _ => rfl, fun _ => rfl⟩

/-- One step of the call of `t` that has `g`, for the places of the listeners and the mutexes. -/
inductive Handover (t : Thread) (g : Custody) (w : EventModule) :
    Fate → Custody → EventModule → Prop
  | keeps {w' : EventModule} : w.SameHands w' → Handover t g w .nothing g w'
  | locks (m : Mutex) : w.holder m = none → (m = .g_event_listener_mutex → g.emptied = false) →
      (∀ m' ∈ g.locks, m' = .g_event_listener_mutex) →
      Handover t g w .nothing { g with locks := m :: g.locks } (w.withHolder m (some t))
  | unlocks (m : Mutex) : g.locks.head? = some m →
      Handover t g w .nothing { g with locks := g.locks.tail } (w.withHolder m none)
  | makes : g.role = .application → g.mine = none → g.registered = false → g.started = false →
      Handover t g w (.begins w.made) { g with mine := some w.made } { w with made := w.made + 1 }
  /-- Windows refuses the notification, or the thread. -/
  | fails (registered started : Bool) : (registered = true → g.registered = true) →
      (started = true → g.started = true) →
      Handover t g w .nothing { g with registered, started } w
  | registers (l : ListenerId) : g.mine = some l → g.quiet = none →
      Handover t g w .nothing { g with registered := true }
        (w.modify l ({ · with registered := true }))
  | starts (l : ListenerId) (ports : PortMap) : g.mine = some l → g.quiet = none →
      Handover t g w .nothing { g with started := true }
        (w.modify l ({ · with ports := some ports, joinable := true }))
  | moves : g.role = .application → g.locks = [.g_event_listener_mutex] → g.old = none →
      g.emptied = false → g.quiet = none →
      Handover t g w .nothing { g with old := w.g_event_listener, emptied := true }
        { w with g_event_listener := none }
  | stores : g.locks = [.g_event_listener_mutex] → g.emptied = true → g.stored = none →
      g.quiet = none → (g.mine ≠ none → g.registered = true ∧ g.started = true) →
      Handover t g w .nothing { g with mine := none, stored := g.mine }
        { w with g_event_listener := g.mine }
  /-- There is no notification to end. -/
  | quiets (l : ListenerId) : g.Has l → (w.listeners l).registered = false →
      Handover t g w .nothing { g with quiet := some l } w
  | unregisters (l : ListenerId) : g.Has l →
      Handover t g w (.silenced l) { g with quiet := some l }
        (w.modify l ({ · with registered := false }))
  | ends (l : ListenerId) : g.Has l → g.quiet = some l →
      Handover t g w (.ends l) (g.drop l) (w.modify l ({ · with joinable := false }))

section Handover

variable {t : Thread} {g : Custody} {w w' : EventModule} {l : ListenerId}

/-- The return from a callback of the application. -/
theorem handover_of_return (hp : EventModule.fromUser w t = some w') :
    Handover t g w .nothing g w' := by
  unfold EventModule.fromUser at hp
  split at hp
  · cases hp
  · cases hp
    exact .keeps (w.withUser_same t false)

/-- A thread that is not joinable is not made so by its end. -/
theorem modify_not_joinable (h : (w.listeners l).joinable = false) :
    w.modify l ({ · with joinable := false }) = w := by
  have hsame : (fun x : Listener => { x with joinable := false }) (w.listeners l) =
      w.listeners l := by
    dsimp only
    rw [← h]
  unfold EventModule.modify
  rw [hsame, Function.update_eq_self]

/-- A turn of the dispatcher, which lets go of the mutex when there is nothing to do. -/
theorem handover_of_check {turn : Turn} (ha : g.locks = [.mutex_ l])
    (hp : EventModule.perform t w (.check l) turn = some w') :
    ∃ g', custody.next g (.check l) turn = some g' ∧ Handover t g w .nothing g' w' := by
  simp only [EventModule.perform] at hp
  split at hp
  · cases hp
    cases turn with
    | asleep => exact ⟨_, rfl, .unlocks (.mutex_ l) (by rw [ha]; rfl)⟩
    | stopped | queueFailed | taken => exact ⟨_, rfl, .keeps (w.withState_same l (·.check.2))⟩
  · cases hp

/-- Every step that a call may do and that the module can do is a handover. -/
theorem handover_of_did {e : ListenerAction} {r : ListenerAnswer e} (ha : custody.allows g e)
    (hp : EventModule.perform t w e r = some w') :
    ∃ g', custody.next g e r = some g' ∧ Handover t g w (fateOf e r) g' w' := by
  cases e with
  | lock m =>
    simp only [EventModule.perform] at hp
    split at hp
    · rename_i hfree
      cases hp
      refine ⟨_, rfl, .locks m hfree ?_ ?_⟩
      · rintro rfl
        exact ha.2.2
      · cases m with
        | g_event_listener_mutex => simp [ha.2.1]
        | mutex_ l => rcases ha.1 with hlocks | hlocks <;> simp [hlocks]
    · cases hp
  | unlock m =>
    simp only [EventModule.perform] at hp
    split at hp
    · cases hp
      refine ⟨_, rfl, .unlocks m ?_⟩
      cases m with
      | g_event_listener_mutex =>
        have hlocks : g.locks = [.g_event_listener_mutex] := ha
        rw [hlocks]
        rfl
      | mutex_ l => exact ha.1
    · cases hp
  | check l => exact handover_of_check ha.2 hp
  | wake l =>
    simp only [EventModule.perform] at hp
    split at hp
    · rename_i hfree
      cases hp
      exact ⟨_, rfl, .locks (.mutex_ l) hfree (by simp) (by simp [ha.2])⟩
    · cases hp
  | enqueue l notification =>
    cases hp
    cases r with
    | none => exact ⟨g, rfl, .keeps (w.withState_same l (·.enqueue notification))⟩
    | some what => exact ⟨g, rfl, .keeps .rfl⟩
  | reportQueueFailure l | activate l | stop l =>
    cases hp
    exact ⟨g, rfl, .keeps (w.withState_same l _)⟩
  | portName | loadErrorCallback | interfaceListSize | interfaceList =>
    cases hp
    exact ⟨g, rfl, .keeps .rfl⟩
  | callback | reportError | invokeError =>
    cases hp
    exact ⟨g, rfl, .keeps (w.withUser_same t true)⟩
  | callbackReturned | reportReturned | errorReturned => exact ⟨g, rfl, handover_of_return hp⟩
  | makeListener =>
    cases r with
    | error what =>
      cases hp
      exact ⟨g, rfl, .keeps .rfl⟩
    | ok l =>
      simp only [EventModule.perform] at hp
      split at hp
      · rename_i hmade
        cases hp
        rw [hmade]
        exact ⟨_, rfl, .makes ha.1 ha.2.1 ha.2.2.1 ha.2.2.2⟩
      · cases hp
  | registerNotification l =>
    cases hp
    cases r with
    | none => exact ⟨_, rfl, .registers l ha.1 ha.2⟩
    | some what => exact ⟨_, rfl, .fails false g.started (by simp) id⟩
  | startThread l ports =>
    cases hp
    cases r with
    | none => exact ⟨_, rfl, .starts l ports ha.1 ha.2⟩
    | some what => exact ⟨_, rfl, .fails g.registered false id (by simp)⟩
  | capturedPorts l =>
    simp only [EventModule.perform] at hp
    split at hp
    · cases hp
      exact ⟨g, rfl, .keeps .rfl⟩
    · cases hp
  | moveListener =>
    simp only [EventModule.perform] at hp
    split at hp
    · rename_i hprevious
      cases hp
      refine ⟨_, rfl, ?_⟩
      rw [← hprevious]
      exact .moves ha.1 ha.2.1 ha.2.2.1 ha.2.2.2.1 ha.2.2.2.2
    · cases hp
  | storeListener replacement =>
    cases hp
    obtain ⟨hlocks, hemptied, hstored, hquiet, rfl, hready⟩ := ha
    exact ⟨_, rfl, .stores hlocks hemptied hstored hquiet hready⟩
  | hasNotification l =>
    simp only [EventModule.perform] at hp
    split at hp
    · rename_i hregistered
      cases hp
      cases r with
      | true => exact ⟨g, rfl, .keeps .rfl⟩
      | false => exact ⟨_, rfl, .quiets l ha.1 hregistered⟩
    · cases hp
  | unregister l =>
    cases hp
    exact ⟨_, rfl, .unregisters l ha.1⟩
  | joinable l =>
    simp only [EventModule.perform] at hp
    split at hp
    · rename_i hjoinable
      cases hp
      cases r with
      | true => exact ⟨g, rfl, .keeps .rfl⟩
      | false =>
        refine ⟨_, rfl, ?_⟩
        have hends : Handover t g w (.ends l) (g.drop l)
            (w.modify l ({ · with joinable := false })) := .ends l ha.1 ha.2.1
        rw [modify_not_joinable hjoinable] at hends
        exact hends
    · cases hp
  | isCurrentThread l =>
    simp only [EventModule.perform] at hp
    split at hp
    · cases hp
      exact ⟨g, rfl, .keeps .rfl⟩
    · cases hp
  | detach l =>
    cases hp
    exact ⟨_, rfl, .ends l ha.1 ha.2.1⟩
  | join l =>
    simp only [EventModule.perform] at hp
    split at hp
    · cases hp
      exact ⟨_, rfl, .ends l ha.1 ha.2.1⟩
    · cases hp

end Handover

/-! ## What a handover leaves -/

section Handover

variable {t : Thread} {g g' : Custody} {w w' : EventModule} {fate : Fate} {l : ListenerId}

theorem Handover.role (h : Handover t g w fate g' w') : g'.role = g.role := by
  cases h <;> rfl

/-- A call changes only the listeners that it has. -/
theorem Handover.leaves (h : Handover t g w fate g' w') (hnot : ¬ g.Has l) :
    (w'.listeners l).registered = (w.listeners l).registered ∧
      (w'.listeners l).ports = (w.listeners l).ports ∧
      (w'.listeners l).joinable = (w.listeners l).joinable := by
  have hother : ∀ {l' : ListenerId} {f : Listener → Listener}, g.Has l' →
      (w.modify l' f).listeners l = w.listeners l := by
    intro l' f hhas
    apply EventModule.modify_ne
    rintro rfl
    exact hnot hhas
  cases h with
  | keeps hsame => exact ⟨hsame.registered l, hsame.ports l, hsame.joinable l⟩
  | locks | unlocks | makes | fails | moves | stores | quiets => exact ⟨rfl, rfl, rfl⟩
  | registers l' hmine | starts l' _ hmine =>
    rw [hother (Or.inl hmine)]
    exact ⟨rfl, rfl, rfl⟩
  | unregisters l' hhas | ends l' hhas =>
    rw [hother hhas]
    exact ⟨rfl, rfl, rfl⟩

/-- A notification is ended only by a call of Windows. -/
theorem Handover.registered (h : Handover t g w fate g' w')
    (hregistered : (w.listeners l).registered = true) (hnot : fate ≠ .silenced l) :
    (w'.listeners l).registered = true := by
  cases h with
  | keeps hsame => exact (hsame.registered l).trans hregistered
  | locks | unlocks | makes | fails | moves | stores | quiets => exact hregistered
  | registers l' =>
    by_cases hl : l = l'
    · rw [hl, EventModule.modify_self]
    · rw [EventModule.modify_ne hl]
      exact hregistered
  | starts | ends =>
    refine (EventModule.modify_keeps Listener.registered ?_).trans hregistered
    exact fun _ => rfl
  | unregisters l' =>
    have hl : l ≠ l' := by
      rintro rfl
      exact hnot rfl
    rw [EventModule.modify_ne hl]
    exact hregistered

/-- A thread that was started has its map of ports. -/
theorem Handover.ports (h : Handover t g w fate g' w')
    (hports : (w.listeners l).ports.isSome = true) : (w'.listeners l).ports.isSome = true := by
  cases h with
  | keeps hsame => rw [hsame.ports l, hports]
  | locks | unlocks | makes | fails | moves | stores | quiets => exact hports
  | starts l' =>
    by_cases hl : l = l'
    · rw [hl, EventModule.modify_self]
      rfl
    · rw [EventModule.modify_ne hl]
      exact hports
  | registers | unregisters | ends =>
    refine (EventModule.modify_keeps (·.ports.isSome) ?_).trans hports
    exact fun _ => rfl

/-- Only under its mutex `g_event_listener` changes. -/
theorem Handover.slot (h : Handover t g w fate g' w')
    (hout : .g_event_listener_mutex ∉ g.locks) : w'.g_event_listener = w.g_event_listener := by
  cases h with
  | keeps hsame => exact hsame.stored
  | moves _ hlocks => exact absurd (hlocks ▸ List.mem_cons_self) hout
  | stores hlocks => exact absurd (hlocks ▸ List.mem_cons_self) hout
  | _ => rfl

end Handover

/-! ## The owners -/

/-- What holds of a listener because of its owner. -/
structure Listener.Under (x : Listener) (owner : Place Thread) : Prop where
  blank : owner = .nowhere → x.ports = none
  off : owner = .nowhere ∨ owner = .gone → x.registered = false ∧ x.joinable = false
  on : owner = .kept → x.registered = true ∧ x.joinable = true

/-- The call of each thread with what it has. -/
abbrev Custodies := Thread → Option (ModuleCall × Custody)

/-- The call of the thread has the listener. -/
def Custodies.Has (gs : Custodies) (t : Thread) (l : ListenerId) : Prop :=
  ∃ c g, gs t = some (c, g) ∧ g.Has l

/-- Who has each listener: nobody before it is made, a call, the module in `g_event_listener`, and
nobody once it is destroyed. Those of `ends` are destroyed. -/
structure Owners (ends : List ListenerId) (own : ListenerId → Place Thread) (gs : Custodies)
    (w : EventModule) : Prop where
  under : ∀ l, (w.listeners l).Under (own l)
  nowhere : ∀ l, own l = .nowhere ↔ w.made ≤ l
  calls : Placed own gs.Has
  slot : ∀ l, own l = .kept ↔ w.g_event_listener = some l
  gone : ∀ l, own l = .gone ↔ l ∈ ends
  once : ends.Nodup

/-- What a call knows of the listeners that it has, and of the mutexes that it holds. -/
structure Custody.Knows (t : Thread) (g : Custody) (w : EventModule) : Prop where
  without : g.role ≠ .application → ∀ l, ¬ g.Has l
  apart : ∀ l, g.mine = some l → g.old ≠ some l
  registered : ∀ l, g.mine = some l → g.quiet = none → g.registered = true →
    (w.listeners l).registered = true
  started : ∀ l, g.mine = some l → g.quiet = none → g.started = true →
    (w.listeners l).joinable = true
  quiet : ∀ l, g.quiet = some l → g.Has l → (w.listeners l).registered = false
  stored : g.stored ≠ none → g.emptied = true
  emptied : .g_event_listener_mutex ∈ g.locks → g.emptied = true → w.g_event_listener = g.stored
  notifies : ∀ l, g.role = .notifies l → (w.listeners l).registered = true
  dispatches : ∀ l, g.role = .dispatches l →
    t = ⟨.dispatcher l, 0⟩ ∧ (w.listeners l).ports.isSome = true
  locks : g.locks.Nodup
  nested : ∀ m ∈ g.locks.tail, m = .g_event_listener_mutex

/-- The listeners and the calls after any steps. -/
structure Keeping (ls : List ModuleLabel) (gs : Custodies) (w : EventModule) : Prop where
  running : ∀ t, running ls t = (gs t).map Prod.fst
  role : ∀ t c g, gs t = some (c, g) → g.role = c.role
  owners : ∃ own, Owners (destroyed ls) own gs w
  knows : ∀ t c g, gs t = some (c, g) → g.Knows t w
  holder : ∀ m t, w.holder m = some t ↔ ∃ c g, gs t = some (c, g) ∧ m ∈ g.locks
  begun : ∀ l, l ∈ made ls ↔ l < w.made

section Owners

variable {ends : List ListenerId} {own : ListenerId → Place Thread} {gs : Custodies}
  {w w' : EventModule} {t : Thread} {c : ModuleCall} {g g' : Custody} {fate : Fate}
  {l : ListenerId} {x : Place Thread}

theorem Custodies.has_self {l : ListenerId} :
    Custodies.Has (Function.update gs t (some (c, g))) t l ↔ g.Has l := by
  unfold Custodies.Has
  rw [Function.update_self]
  constructor
  · rintro ⟨_, _, ⟨⟩, hhas⟩
    exact hhas
  · exact fun hhas => ⟨c, g, rfl, hhas⟩

theorem Custodies.has_ne {u : Thread} {y : Option (ModuleCall × Custody)} (hu : u ≠ t)
    (l : ListenerId) : Custodies.Has (Function.update gs t y) u l ↔ gs.Has u l := by
  unfold Custodies.Has
  rw [Function.update_of_ne hu]

theorem Custodies.has_of {l : ListenerId} (ht : gs t = some (c, g)) : gs.Has t l ↔ g.Has l := by
  have hself : Custodies.Has (Function.update gs t (some (c, g))) t l ↔ g.Has l := has_self
  rwa [← ht, Function.update_eq_self] at hself

theorem Owners.init : Owners [] (fun _ => .nowhere) (fun _ => none) {} where
  under _ := ⟨fun _ => rfl, fun _ => ⟨rfl, rfl⟩, nofun⟩
  nowhere l := ⟨fun _ => Nat.zero_le l, fun _ => rfl⟩
  calls _ _ := ⟨nofun, fun ⟨_, _, h, _⟩ => nomatch h⟩
  slot _ := ⟨nofun, nofun⟩
  gone _ := ⟨nofun, nofun⟩
  once := List.nodup_nil

theorem Owners.has (h : Owners ends own gs w) (ht : gs t = some (c, g)) (hhas : g.Has l) :
    own l = .held t := (h.calls l t).mpr ⟨c, g, ht, hhas⟩

/-- No owner changes. -/
theorem Owners.same (h : Owners ends own gs w) (ht : gs t = some (c, g))
    (hmade : w'.made = w.made) (hslot : w'.g_event_listener = w.g_event_listener)
    (hhas : ∀ l, g'.Has l ↔ g.Has l) (hunder : ∀ l, (w'.listeners l).Under (own l)) :
    Owners ends own (Function.update gs t (some (c, g'))) w' where
  under := hunder
  nowhere l := hmade ▸ h.nowhere l
  calls := by
    refine h.calls.same fun u l => ?_
    by_cases hu : u = t
    · rw [hu, Custodies.has_self, Custodies.has_of ht, hhas]
    · exact Custodies.has_ne hu l
  slot l := hslot ▸ h.slot l
  gone := h.gone
  once := h.once

/-- The owner of one listener changes, and what the call of `t` has follows. -/
theorem Owners.change {ends' : List ListenerId} (h : Owners ends own gs w)
    (ht : gs t = some (c, g)) (hbefore : ∀ u, own l = .held u → u = t)
    (hafter : ∀ u, x = .held u → u = t) (hself : g'.Has l ↔ x = .held t)
    (hother : ∀ l', l' ≠ l → (g'.Has l' ↔ g.Has l'))
    (hunder : (w'.listeners l).Under x ∧ ∀ l', l' ≠ l → (w'.listeners l').Under (own l'))
    (hnowhere : (x = .nowhere ↔ w'.made ≤ l) ∧ ∀ l', l' ≠ l → (w.made ≤ l' ↔ w'.made ≤ l'))
    (hslot : (x = .kept ↔ w'.g_event_listener = some l) ∧
      ∀ l', l' ≠ l → (w.g_event_listener = some l' ↔ w'.g_event_listener = some l'))
    (hgone : (x = .gone ↔ l ∈ ends') ∧ ∀ l', l' ≠ l → (l' ∈ ends ↔ l' ∈ ends'))
    (honce : ends'.Nodup) :
    Owners ends' (Function.update own l x) (Function.update gs t (some (c, g'))) w' where
  under := (Function.forall_update_iff own fun l' y => (w'.listeners l').Under y).mpr hunder
  nowhere := by
    refine (Function.forall_update_iff own fun l' y => y = .nowhere ↔ w'.made ≤ l').mpr ?_
    exact ⟨hnowhere.1, fun l' hl => (h.nowhere l').trans (hnowhere.2 l' hl)⟩
  calls := by
    refine h.calls.move hbefore hafter (Custodies.has_self.trans hself) (fun l' hl => ?_)
      fun u hu => Custodies.has_ne hu
    rw [Custodies.has_self, Custodies.has_of ht, hother l' hl]
  slot := by
    refine (Function.forall_update_iff own fun l' y => y = .kept ↔
      w'.g_event_listener = some l').mpr ?_
    exact ⟨hslot.1, fun l' hl => (h.slot l').trans (hslot.2 l' hl)⟩
  gone := by
    refine (Function.forall_update_iff own fun l' y => y = .gone ↔ l' ∈ ends').mpr ?_
    exact ⟨hgone.1, fun l' hl => (h.gone l').trans (hgone.2 l' hl)⟩
  once := honce

/-- What a listener is under its owner follows the flags. -/
theorem Listener.Under.of_same {y : Listener} {x' : Listener} {owner : Place Thread}
    (h : y.Under owner) (hregistered : x'.registered = y.registered) (hports : x'.ports = y.ports)
    (hjoinable : x'.joinable = y.joinable) : x'.Under owner where
  blank hx := hports.trans (h.blank hx)
  off hx := by
    rw [hregistered, hjoinable]
    exact h.off hx
  on hx := by
    rw [hregistered, hjoinable]
    exact h.on hx

/-- A listener that a call has may be as it is. -/
theorem Listener.under_call (y : Listener) (t : Thread) : y.Under (.held t) :=
  ⟨nofun, fun h => h.elim nofun nofun, nofun⟩

/-- A handover leaves each listener under its owner, where that does not change. -/
theorem Handover.under (h : Handover t g w fate g' w') (howners : Owners ends own gs w)
    (ht : gs t = some (c, g)) (l : ListenerId) : (w'.listeners l).Under (own l) := by
  by_cases hhas : g.Has l
  · rw [howners.has ht hhas]
    exact Listener.under_call _ t
  · obtain ⟨hregistered, hports, hjoinable⟩ := h.leaves hhas
    exact (howners.under l).of_same hregistered hports hjoinable

/-- After a handover each listener has one owner again. -/
theorem Handover.owners (h : Handover t g w fate g' w') (howners : Owners ends own gs w)
    (ht : gs t = some (c, g)) (hknows : g.Knows t w) :
    ∃ own', Owners (ends ++ fate.destroyed) own' (Function.update gs t (some (c, g'))) w' := by
  have hunder := h.under howners ht
  have hends : ∀ {fate : Fate}, fate.destroyed = [] → ends ++ fate.destroyed = ends := by
    intro fate hfate
    rw [hfate, List.append_nil]
  cases h with
  | keeps hsame =>
    rw [hends rfl]
    exact ⟨own, howners.same ht hsame.made hsame.stored (fun _ => Iff.rfl) hunder⟩
  | locks | unlocks | fails | registers | starts | quiets | unregisters =>
    rw [hends rfl]
    exact ⟨own, howners.same ht rfl rfl (fun _ => Iff.rfl) hunder⟩
  | makes _ hmine =>
    have hnowhere : own w.made = .nowhere := (howners.nowhere w.made).mpr (Nat.le_refl _)
    have hnot : ¬ g.Has w.made := by
      intro hhas
      rw [howners.has ht hhas] at hnowhere
      cases hnowhere
    have hslot : w.g_event_listener ≠ some w.made := by
      rw [ne_eq, ← howners.slot, hnowhere]
      simp
    have hended : w.made ∉ ends := by
      rw [← howners.gone, hnowhere]
      simp
    rw [hends rfl]
    refine ⟨_, howners.change (l := w.made) (x := .held t) ht ?_ ?_ ?_ ?_ ?_ ?_ ?_ ?_
      howners.once⟩
    · intro u hu
      rw [hnowhere] at hu
      cases hu
    · rintro u ⟨⟩
      rfl
    · exact ⟨fun _ => rfl, fun _ => Or.inl rfl⟩
    · intro l' hl
      have hne : w.made ≠ l' := Ne.symm hl
      simp [Custody.Has, hmine, hne]
    · exact ⟨Listener.under_call _ t, fun l' _ => howners.under l'⟩
    · refine ⟨iff_of_false (by simp) (Nat.not_succ_le_self _), fun l' hl => ?_⟩
      exact ⟨fun hle => Nat.lt_of_le_of_ne hle (Ne.symm hl), Nat.le_of_lt⟩
    · exact ⟨iff_of_false (by simp) hslot, fun _ _ => Iff.rfl⟩
    · exact ⟨iff_of_false (by simp) hended, fun _ _ => Iff.rfl⟩
  | moves _ _ hold =>
    rw [hends rfl]
    cases hp : w.g_event_listener with
    | none =>
      refine ⟨own, howners.same ht rfl hp.symm (fun l' => ?_) hunder⟩
      simp [Custody.Has, hold]
    | some p =>
      have hslot : own p = .kept := (howners.slot p).mpr hp
      refine ⟨_, howners.change (l := p) (x := .held t) ht ?_ ?_ ?_ ?_ ?_ ?_ ?_ ?_ howners.once⟩
      · intro u hu
        rw [hslot] at hu
        cases hu
      · rintro u ⟨⟩
        rfl
      · exact ⟨fun _ => rfl, fun _ => Or.inr rfl⟩
      · intro l' hl
        have hne : p ≠ l' := Ne.symm hl
        simp [Custody.Has, hold, hne]
      · exact ⟨Listener.under_call _ t, fun l' _ => howners.under l'⟩
      · refine ⟨?_, fun _ _ => Iff.rfl⟩
        change _ ↔ w.made ≤ p
        rw [← howners.nowhere, hslot]
        simp
      · refine ⟨by simp, fun l' hl => ?_⟩
        have hne : p ≠ l' := Ne.symm hl
        simp [hp, hne]
      · rw [← howners.gone, hslot]
        exact ⟨by simp, fun _ _ => Iff.rfl⟩
  | stores hlocks hemptied hstored hquiet hready =>
    have hnone : w.g_event_listener = none :=
      (hknows.emptied (hlocks ▸ List.mem_cons_self) hemptied).trans hstored
    rw [hends rfl]
    cases hmine : g.mine with
    | none =>
      refine ⟨own, howners.same ht rfl hnone.symm (fun l' => ?_) hunder⟩
      simp [Custody.Has, hmine]
    | some p =>
      have hcall : own p = .held t := howners.has ht (Or.inl hmine)
      have hne : g.mine ≠ none := by simp [hmine]
      refine ⟨_, howners.change (l := p) (x := .kept) ht ?_ ?_ ?_ ?_ ?_ ?_ ?_ ?_ howners.once⟩
      · intro u hu
        rw [hcall] at hu
        cases hu
        rfl
      · simp
      · simp [Custody.Has, hknows.apart p hmine]
      · intro l' hl
        have hne : p ≠ l' := Ne.symm hl
        simp [Custody.Has, hmine, hne]
      · refine ⟨⟨by simp, by simp, fun _ => ?_⟩, fun l' _ => howners.under l'⟩
        exact ⟨hknows.registered p hmine hquiet (hready hne).1,
          hknows.started p hmine hquiet (hready hne).2⟩
      · refine ⟨?_, fun _ _ => Iff.rfl⟩
        change _ ↔ w.made ≤ p
        rw [← howners.nowhere, hcall]
        simp
      · refine ⟨⟨fun _ => rfl, fun _ => rfl⟩, fun l' hl => ?_⟩
        have hne : p ≠ l' := Ne.symm hl
        simp [hnone, hne]
      · rw [← howners.gone, hcall]
        exact ⟨by simp, fun _ _ => Iff.rfl⟩
  | ends p hhas hquiet =>
    have hcall : own p = .held t := howners.has ht hhas
    have hended : p ∉ ends := by
      rw [← howners.gone, hcall]
      simp
    refine ⟨_, howners.change (l := p) (x := .gone) ht ?_ ?_ ?_ ?_ ?_ ?_ ?_ ?_ ?_⟩
    · intro u hu
      rw [hcall] at hu
      cases hu
      rfl
    · simp
    · simp [Custody.Has, Custody.drop]
    · intro l' hl
      have hne : p ≠ l' := Ne.symm hl
      unfold Custody.Has Custody.drop
      split <;> split <;> simp_all
    · refine ⟨⟨by simp, fun _ => ?_, by simp⟩, fun l' hl => ?_⟩
      · rw [EventModule.modify_self]
        exact ⟨hknows.quiet p hquiet hhas, rfl⟩
      · rw [EventModule.modify_ne hl]
        exact howners.under l'
    · refine ⟨?_, fun _ _ => Iff.rfl⟩
      change _ ↔ w.made ≤ p
      rw [← howners.nowhere, hcall]
      simp
    · refine ⟨?_, fun _ _ => Iff.rfl⟩
      change _ ↔ w.g_event_listener = some p
      rw [← howners.slot, hcall]
      simp
    · have hmem : ∀ l', l' ∈ ends ++ (Fate.ends p).destroyed ↔ l' ∈ ends ∨ l' = p := by
        simp [Fate.destroyed]
      exact ⟨⟨fun _ => (hmem p).mpr (Or.inr rfl), fun _ => rfl⟩, fun l' hl =>
        ((hmem l').trans (or_iff_left hl)).symm⟩
    · simp only [Fate.destroyed]
      exact List.nodup_append.mpr ⟨howners.once, List.nodup_singleton p, by
        rintro q hq _ hp rfl
        rw [List.mem_singleton] at hp
        exact hended (hp ▸ hq)⟩

/-- A call that made a handover knows again what it has. -/
theorem Handover.knows (h : Handover t g w fate g' w') (howners : Owners ends own gs w)
    (ht : gs t = some (c, g)) (hknows : g.Knows t w)
    (hholds : ∀ m, w.holder m = some t ↔ m ∈ g.locks)
    (hwaits : ∀ l, fate = .silenced l → g.role ≠ .notifies l) : g'.Knows t w' := by
  have hrole := h.role
  have hnotifies : ∀ l, g'.role = .notifies l → (w'.listeners l).registered = true := by
    intro l hl
    rw [hrole] at hl
    exact h.registered (hknows.notifies l hl) fun hfate => hwaits l hfate hl
  have hdispatches : ∀ l, g'.role = .dispatches l →
      t = ⟨.dispatcher l, 0⟩ ∧ (w'.listeners l).ports.isSome = true := by
    intro l hl
    rw [hrole] at hl
    exact ⟨(hknows.dispatches l hl).1, h.ports (hknows.dispatches l hl).2⟩
  have hwithout : g'.role ≠ .application → ∀ l, ¬ g'.Has l := by
    intro hother
    have hbefore := hknows.without (hrole ▸ hother)
    cases h with
    | makes happ | moves happ => exact absurd happ hother
    | stores => exact fun l hhas => hbefore l (hhas.imp nofun id)
    | ends p hhas => exact absurd hhas (hbefore p)
    | _ => exact hbefore
  obtain ⟨_, hapart, hregistered, hstarted, hquiet, hstored, hemptied, _, _, hlocks, hnested⟩ :=
    hknows
  cases h with
  | keeps hsame =>
    exact {
      without := hwithout
      apart := hapart
      registered l hmine hq hr := (hsame.registered l).trans (hregistered l hmine hq hr)
      started l hmine hq hs := (hsame.joinable l).trans (hstarted l hmine hq hs)
      quiet l hq hhas := (hsame.registered l).trans (hquiet l hq hhas)
      stored := hstored
      emptied hmem he := hsame.stored.trans (hemptied hmem he)
      notifies := hnotifies
      dispatches := hdispatches
      locks := hlocks
      nested := hnested }
  | locks m hfree hglobal hinner =>
    refine ⟨hwithout, hapart, hregistered, hstarted, hquiet, hstored, fun hmem he => ?_, hnotifies,
      hdispatches, ?_, hinner⟩
    · rcases List.mem_cons.mp hmem with rfl | hmem
      · rw [hglobal rfl] at he
        cases he
      · exact hemptied hmem he
    · refine List.nodup_cons.mpr ⟨fun hmem => ?_, hlocks⟩
      rw [(hholds m).mpr hmem] at hfree
      cases hfree
  | unlocks m =>
    exact ⟨hwithout, hapart, hregistered, hstarted, hquiet, hstored,
      fun hmem => hemptied (List.mem_of_mem_tail hmem), hnotifies, hdispatches, hlocks.tail,
      fun m' hmem => hnested m' (List.mem_of_mem_tail hmem)⟩
  | makes happ hmine hnot hnot' =>
    have hnowhere : own w.made = .nowhere := (howners.nowhere w.made).mpr (Nat.le_refl _)
    refine ⟨hwithout, ?_, ?_, ?_, ?_, hstored, hemptied, hnotifies, hdispatches, hlocks, hnested⟩
    · rintro l ⟨⟩ hold
      rw [howners.has ht (Or.inr hold)] at hnowhere
      cases hnowhere
    · intro l _ _ hr
      rw [hnot] at hr
      cases hr
    · intro l _ _ hs
      rw [hnot'] at hs
      cases hs
    · intro l hq hhas
      rcases hhas with hl | hold
      · cases hl
        exact ((howners.under w.made).off (Or.inl hnowhere)).1
      · exact hquiet l hq (Or.inr hold)
  | fails registered started hr hs =>
    exact ⟨hwithout, hapart, fun l hmine hq h => hregistered l hmine hq (hr h),
      fun l hmine hq h => hstarted l hmine hq (hs h), hquiet, hstored, hemptied, hnotifies,
      hdispatches, hlocks, hnested⟩
  | registers p hmine hq =>
    refine ⟨hwithout, hapart, fun l hl _ _ => ?_, fun l hl hq hs => ?_, fun l hl => ?_, hstored,
      hemptied, hnotifies, hdispatches, hlocks, hnested⟩
    · cases hmine.symm.trans hl
      rw [EventModule.modify_self]
    · refine (EventModule.modify_keeps Listener.joinable ?_).trans (hstarted l hl hq hs)
      exact fun _ => rfl
    · cases hq.symm.trans hl
  | starts p ports hmine hq =>
    refine ⟨hwithout, hapart, fun l hl hq hr => ?_, fun l hl _ _ => ?_, fun l hl => ?_, hstored,
      hemptied, hnotifies, hdispatches, hlocks, hnested⟩
    · refine (EventModule.modify_keeps Listener.registered ?_).trans (hregistered l hl hq hr)
      exact fun _ => rfl
    · cases hmine.symm.trans hl
      rw [EventModule.modify_self]
    · cases hq.symm.trans hl
  | moves happ _ _ hfull hq =>
    refine ⟨hwithout, fun l hmine hp => ?_, hregistered, hstarted, fun l hl => ?_, fun _ => rfl,
      fun _ _ => ?_, hnotifies, hdispatches, hlocks, hnested⟩
    · have hcall := howners.has ht (Or.inl hmine)
      rw [(howners.slot l).mpr hp] at hcall
      cases hcall
    · cases hq.symm.trans hl
    · -- before the move the call has stored nothing
      by_contra hne
      rw [hstored (Ne.symm hne)] at hfull
      cases hfull
  | stores _ hempty _ hq =>
    refine ⟨hwithout, nofun, nofun, nofun, fun l hl => ?_, fun _ => hempty, fun _ _ => rfl,
      hnotifies, hdispatches, hlocks, hnested⟩
    cases hq.symm.trans hl
  | quiets p _ hnot =>
    refine ⟨hwithout, hapart, nofun, nofun, fun l hl _ => ?_, hstored, hemptied, hnotifies,
      hdispatches, hlocks, hnested⟩
    cases hl
    exact hnot
  | unregisters p =>
    refine ⟨hwithout, hapart, nofun, nofun, fun l hl _ => ?_, hstored, hemptied, hnotifies,
      hdispatches, hlocks, hnested⟩
    cases hl
    rw [EventModule.modify_self]
  | ends p hhas hq =>
    have hmine : ∀ l, (g.drop p).mine = some l → g.mine = some l ∧ l ≠ p := by
      intro l hl
      simp only [Custody.drop] at hl
      split at hl
      · cases hl
      · exact ⟨hl, fun h => absurd (h ▸ hl) (by assumption)⟩
    have hold : ∀ l, (g.drop p).old = some l → g.old = some l ∧ l ≠ p := by
      intro l hl
      simp only [Custody.drop] at hl
      split at hl
      · cases hl
      · exact ⟨hl, fun h => absurd (h ▸ hl) (by assumption)⟩
    refine ⟨hwithout, fun l hl hl' => hapart l (hmine l hl).1 (hold l hl').1, fun l _ hq' => ?_,
      fun l _ hq' => ?_, fun l hl hhas => ?_, hstored, hemptied, hnotifies, hdispatches, hlocks,
      hnested⟩
    · cases hq'.symm.trans hq
    · cases hq'.symm.trans hq
    · cases hq.symm.trans hl
      rcases hhas with hl | hl
      · exact absurd rfl (hmine p hl).2
      · exact absurd rfl (hold p hl).2

/-- What another call knows stays true. -/
theorem Handover.leaves_knowing {u : Thread} {c₂ : ModuleCall} {g₂ : Custody}
    (h : Handover t g w fate g' w') (howners : Owners ends own gs w) (ht : gs t = some (c, g))
    (hu : gs u = some (c₂, g₂)) (hut : u ≠ t) (hknows : g₂.Knows u w)
    (halone : .g_event_listener_mutex ∈ g₂.locks → .g_event_listener_mutex ∉ g.locks)
    (hwaits : ∀ l, fate = .silenced l → g₂.role ≠ .notifies l) : g₂.Knows u w' := by
  -- what the other call has is not in the hands of this one
  have hleaves : ∀ {l}, g₂.Has l → ¬ g.Has l := by
    intro l hhas hhas'
    exact hut (howners.calls.one ⟨c, g, ht, hhas'⟩ ⟨c₂, g₂, hu, hhas⟩)
  exact {
    without := hknows.without
    apart := hknows.apart
    registered l hmine hq hr :=
      (h.leaves (hleaves (Or.inl hmine))).1.trans (hknows.registered l hmine hq hr)
    started l hmine hq hs :=
      (h.leaves (hleaves (Or.inl hmine))).2.2.trans (hknows.started l hmine hq hs)
    quiet l hq hhas := (h.leaves (hleaves hhas)).1.trans (hknows.quiet l hq hhas)
    stored := hknows.stored
    emptied hmem he := (h.slot (halone hmem)).trans (hknows.emptied hmem he)
    notifies l hl := h.registered (hknows.notifies l hl) fun hfate => hwaits l hfate hl
    dispatches l hl := ⟨(hknows.dispatches l hl).1, h.ports (hknows.dispatches l hl).2⟩
    locks := hknows.locks
    nested := hknows.nested }

theorem Handover.made (h : Handover t g w fate g' w') (l : ListenerId) :
    l < w'.made ↔ l < w.made ∨ l ∈ fate.made := by
  have hnone : l < w.made ↔ l < w.made ∨ l ∈ ([] : List ListenerId) := by simp
  cases h with
  | keeps hsame =>
    rw [hsame.made]
    exact hnone
  | makes =>
    change l < w.made + 1 ↔ l < w.made ∨ l ∈ [w.made]
    rw [List.mem_singleton]
    exact Nat.lt_succ_iff_lt_or_eq
  | _ => exact hnone

/-- A thread holds after its handover what its call says. -/
theorem Handover.holds (h : Handover t g w fate g' w') (hlocks : g.locks.Nodup)
    (hholds : ∀ m, w.holder m = some t ↔ m ∈ g.locks) (m : Mutex) :
    w'.holder m = some t ↔ m ∈ g'.locks := by
  cases h with
  | keeps hsame =>
    rw [hsame.holder]
    exact hholds m
  | locks m₀ =>
    by_cases hm : m = m₀
    · simp [hm]
    · simp [hm, hholds m]
  | unlocks m₀ hhead =>
    obtain ⟨rest, hrest⟩ := List.head?_eq_some_iff.mp hhead
    rw [hrest] at hlocks
    have hnot : m₀ ∉ rest := (List.nodup_cons.mp hlocks).1
    by_cases hm : m = m₀
    · simp [hm, hrest, hnot]
    · simp [hm, hholds m, hrest]
  | _ => exact hholds m

theorem Handover.leaves_holding {u : Thread} (h : Handover t g w fate g' w') (hut : u ≠ t)
    (hholds : ∀ m, w.holder m = some t ↔ m ∈ g.locks) (m : Mutex) :
    w'.holder m = some u ↔ w.holder m = some u := by
  have htu : t ≠ u := Ne.symm hut
  cases h with
  | keeps hsame => rw [hsame.holder]
  | locks m₀ hfree =>
    by_cases hm : m = m₀
    · simp [hm, hfree, htu]
    · simp [hm]
  | unlocks m₀ hhead =>
    by_cases hm : m = m₀
    · have hheld : w.holder m₀ = some t := (hholds m₀).mpr (List.mem_of_mem_head? hhead)
      simp [hm, hheld, htu]
    · simp [hm]
  | _ => exact Iff.rfl

end Owners

/-! ## Every run -/

theorem EventModule.enter_same {w w' : EventModule} {t : Thread} {c : ModuleCall}
    (he : EventModule.enter t w c = some w') : w.mayEnter t c = true ∧ w.SameHands w' := by
  unfold EventModule.enter at he
  split at he
  · rename_i hmay
    cases he
    refine ⟨hmay, ?_⟩
    cases c with
    | set | deviceNotification => exact ⟨rfl, rfl, rfl, fun _ => rfl, fun _ => rfl, fun _ => rfl⟩
    | dispatch l turns =>
      exact ⟨rfl, rfl, rfl, fun _ => modify_keeps Listener.registered fun _ => rfl,
        fun _ => modify_keeps Listener.ports fun _ => rfl,
        fun _ => modify_keeps Listener.joinable fun _ => rfl⟩
  · cases he

theorem EventModule.leave_same {w w' : EventModule} {t : Thread} {c : ModuleCall}
    {returned : Option Int} (hl : EventModule.leave t w c returned = some w') :
    w.SameHands w' := by
  unfold EventModule.leave at hl
  split at hl
  · cases hl
    cases c with
    | set | deviceNotification => exact ⟨rfl, rfl, rfl, fun _ => rfl, fun _ => rfl, fun _ => rfl⟩
    | dispatch l turns =>
      exact ⟨rfl, rfl, rfl, fun _ => modify_keeps Listener.registered fun _ => rfl,
        fun _ => modify_keeps Listener.ports fun _ => rfl,
        fun _ => modify_keeps Listener.joinable fun _ => rfl⟩
  · cases hl

/-- What a call knows it knows in a module with the same listeners. -/
theorem Custody.Knows.of_same {t : Thread} {g : Custody} {w w' : EventModule} (h : g.Knows t w)
    (hsame : w.SameHands w') : g.Knows t w' where
  without := h.without
  apart := h.apart
  registered l hmine hq hr := (hsame.registered l).trans (h.registered l hmine hq hr)
  started l hmine hq hs := (hsame.joinable l).trans (h.started l hmine hq hs)
  quiet l hq hhas := (hsame.registered l).trans (h.quiet l hq hhas)
  stored := h.stored
  emptied hmem he := hsame.stored.trans (h.emptied hmem he)
  notifies l hl := (hsame.registered l).trans (h.notifies l hl)
  dispatches l hl := by
    rw [hsame.ports l]
    exact h.dispatches l hl
  locks := h.locks
  nested := h.nested

/-- The owners in a module with the same listeners, where the call of `t` has nothing, before or
after. -/
theorem Owners.of_same {ends : List ListenerId} {own : ListenerId → Place Thread} {gs : Custodies}
    {w w' : EventModule} {t : Thread} {x : Option (ModuleCall × Custody)}
    (h : Owners ends own gs w) (hsame : w.SameHands w')
    (hbefore : ∀ c g, gs t = some (c, g) → ∀ l, ¬ g.Has l)
    (hafter : ∀ c g, x = some (c, g) → ∀ l, ¬ g.Has l) :
    Owners ends own (Function.update gs t x) w' where
  under l := (h.under l).of_same (hsame.registered l) (hsame.ports l) (hsame.joinable l)
  nowhere l := hsame.made ▸ h.nowhere l
  calls := by
    refine h.calls.same fun u l => ?_
    by_cases hu : u = t
    · unfold Custodies.Has
      rw [hu, Function.update_self]
      exact ⟨fun ⟨c, g, hg, hhas⟩ => absurd hhas (hafter c g hg l),
        fun ⟨c, g, hg, hhas⟩ => absurd hhas (hbefore c g hg l)⟩
    · exact Custodies.has_ne hu l
  slot l := hsame.stored ▸ h.slot l
  gone := h.gone
  once := h.once

namespace Keeping

variable {ls : List ModuleLabel} {gs : Custodies} {w w' : EventModule} {t : Thread}
  {c : ModuleCall} {g : Custody}

theorem init : Keeping [] (fun _ => none) {} where
  running _ := rfl
  role _ _ _ h := nomatch h
  owners := ⟨_, Owners.init⟩
  knows _ _ _ h := nomatch h
  holder _ _ := ⟨nofun, fun ⟨_, _, h, _⟩ => nomatch h⟩
  begun _ := ⟨nofun, nofun⟩

theorem holds (h : Keeping ls gs w) (ht : gs t = some (c, g)) (m : Mutex) :
    w.holder m = some t ↔ m ∈ g.locks := by
  rw [h.holder m t, ht]
  constructor
  · rintro ⟨_, _, ⟨⟩, hmem⟩
    exact hmem
  · exact fun hmem => ⟨c, g, rfl, hmem⟩

theorem running_of (h : Keeping ls gs w) (ht : gs t = some (c, g)) :
    programs.running ls t = some c := by
  rw [h.running, ht]
  rfl

theorem did (h : Keeping ls gs w) (ht : gs t = some (c, g)) {e : ListenerAction}
    {r : ListenerAnswer e} (ha : custody.allows g e) (hp : EventModule.perform t w e r = some w')
    (hwaits : UnregisterWaits ls w (.did t e r)) :
    ∃ g', custody.next g e r = some g' ∧
      Keeping (ls ++ [.did t e r]) (Function.update gs t (some (c, g'))) w' := by
  obtain ⟨g', hnext, hd⟩ := handover_of_did ha hp
  -- Windows ends no notification that runs
  have hsilent : ∀ l, fateOf e r = .silenced l →
      ∀ u c₂ g₂, gs u = some (c₂, g₂) → g₂.role ≠ .notifies l := by
    intro l hfate u c₂ g₂ hu hrole
    have he : e = .unregister l := by
      cases e <;> first | (cases hfate; rfl) | cases hfate | (cases r <;> cases hfate)
    subst he
    apply hwaits l rfl u c₂ (h.running_of hu)
    rw [← h.role u c₂ g₂ hu, hrole]
  obtain ⟨own, howners⟩ := h.owners
  have hknows := h.knows t c g ht
  refine ⟨g', hnext, ?_, ?_, ?_, ?_, ?_, ?_⟩
  · intro u
    rw [running_did, h.running u]
    by_cases hu : u = t
    · rw [hu, Function.update_self, ht]
      rfl
    · rw [Function.update_of_ne hu]
  · refine forall_inside (fun u c₂ g₂ _ hu => h.role u c₂ g₂ hu) ?_
    rw [hd.role]
    exact h.role t c g ht
  · obtain ⟨own', howners'⟩ := hd.owners howners ht hknows
    rw [destroyed_did]
    exact ⟨own', howners'⟩
  · refine forall_inside (P := fun u _ g₂ => Custody.Knows u g₂ w') (fun u c₂ g₂ hut hu => ?_) ?_
    · refine hd.leaves_knowing howners ht hu hut (h.knows u c₂ g₂ hu) (fun hmem hmem' => ?_)
        fun l hfate => hsilent l hfate u c₂ g₂ hu
      have heq := ((h.holds hu _).mpr hmem).symm.trans ((h.holds ht _).mpr hmem')
      exact hut (Option.some.inj heq)
    · exact hd.knows howners ht hknows (h.holds ht) fun l hfate => hsilent l hfate t c g ht
  · intro m u
    by_cases hu : u = t
    · rw [hu, Function.update_self, hd.holds hknows.locks (h.holds ht) m]
      constructor
      · exact fun hmem => ⟨c, g', rfl, hmem⟩
      · rintro ⟨_, _, ⟨⟩, hmem⟩
        exact hmem
    · rw [Function.update_of_ne hu, hd.leaves_holding hu (h.holds ht) m]
      exact h.holder m u
  · intro l
    rw [made_did, List.mem_append, h.begun l, hd.made l]

theorem enter (h : Keeping ls gs w) (ht : gs t = none)
    (he : EventModule.enter t w c = some w') :
    Keeping (ls ++ [.enter t c]) (Function.update gs t (some (c, c.custody))) w' := by
  obtain ⟨hmay, hsame⟩ := EventModule.enter_same he
  refine ⟨?_, ?_, ?_, ?_, ?_, ?_⟩
  · intro u
    rw [running_enter]
    by_cases hu : u = t
    · rw [hu, Function.update_self, Function.update_self]
      rfl
    · rw [Function.update_of_ne hu, Function.update_of_ne hu, h.running u]
  · exact forall_inside (fun u c₂ g₂ _ hu => h.role u c₂ g₂ hu) rfl
  · obtain ⟨own, howners⟩ := h.owners
    rw [destroyed_enter]
    refine ⟨own, howners.of_same hsame ?_ ?_⟩
    · intro c₂ g₂ hg
      rw [ht] at hg
      cases hg
    · rintro _ _ ⟨⟩ l (hmine | hold)
      · cases hmine
      · cases hold
  · refine forall_inside (P := fun u _ g₂ => Custody.Knows u g₂ w')
      (fun u c₂ g₂ _ hu => (h.knows u c₂ g₂ hu).of_same hsame) ?_
    refine ⟨fun _ l hhas => hhas.elim nofun nofun, nofun, nofun, nofun, nofun, nofun, nofun,
      fun l hl => ?_, fun l hl => ?_, List.nodup_nil, nofun⟩
    · cases c with
      | set => cases hl
      | dispatch => cases hl
      | deviceNotification l' action data =>
        cases hl
        rw [hsame.registered]
        simp only [EventModule.mayEnter, Bool.and_eq_true] at hmay
        exact hmay.1.1
    · cases c with
      | set => cases hl
      | deviceNotification => cases hl
      | dispatch l' turns =>
        cases hl
        rw [hsame.ports]
        obtain ⟨hos, hports, _⟩ := Stacked.mayEnter_dispatch hmay
        exact ⟨hos, hports⟩
  · intro m u
    rw [hsame.holder, h.holder m u]
    by_cases hu : u = t
    · rw [hu, Function.update_self, ht]
      constructor
      · rintro ⟨_, _, ⟨⟩, _⟩
      · rintro ⟨_, _, ⟨⟩, hmem⟩
        cases hmem
    · rw [Function.update_of_ne hu]
  · intro l
    rw [made_enter, h.begun l, hsame.made]

theorem leave {returned : Option Int} (h : Keeping ls gs w) (ht : gs t = some (c, g))
    (hends : g.Ends) (hl : EventModule.leave t w c returned = some w') :
    Keeping (ls ++ [.leave t c returned]) (Function.update gs t none) w' := by
  have hsame := EventModule.leave_same hl
  refine ⟨?_, ?_, ?_, ?_, ?_, ?_⟩
  · intro u
    rw [running_leave]
    by_cases hu : u = t
    · rw [hu, Function.update_self, Function.update_self]
      rfl
    · rw [Function.update_of_ne hu, Function.update_of_ne hu, h.running u]
  · intro u c₂ g₂ hu
    exact h.role u c₂ g₂ (stays_inside hu).2
  · obtain ⟨own, howners⟩ := h.owners
    rw [destroyed_leave]
    refine ⟨own, howners.of_same hsame ?_ ?_⟩
    · intro c₂ g₂ hg l hhas
      rw [ht] at hg
      cases hg
      rcases hhas with hmine | hold
      · cases hends.mine.symm.trans hmine
      · cases hends.old.symm.trans hold
    · intro c₂ g₂ hg
      cases hg
  · intro u c₂ g₂ hu
    exact (h.knows u c₂ g₂ (stays_inside hu).2).of_same hsame
  · intro m u
    rw [hsame.holder, h.holder m u]
    by_cases hu : u = t
    · rw [hu, Function.update_self, ht]
      constructor
      · rintro ⟨_, _, ⟨⟩, hmem⟩
        rw [hends.locks] at hmem
        cases hmem
      · rintro ⟨_, _, ⟨⟩, _⟩
    · rw [Function.update_of_ne hu]
  · intro l
    rw [made_leave, h.begun l, hsame.made]

end Keeping

def keepingOutline (core : CppCore) (chars : CharUpper) :
    Outline (eventModule core chars) UnregisterWaits {} custody where
  start := ModuleCall.custody
  post _ g returned := ∀ code, returned = some code → g.Ends
  inv := Keeping
  follows c := c.program_keeps core chars
  init := Keeping.init
  enter hi ht he _ := hi.enter ht he
  did hi ht ha hp hok := hi.did ht ha hp hok
  leave := by
    intro ls gs w t c g returned w' hi ht hends hl _
    obtain ⟨code, hcode⟩ := returned_of_leave hl
    exact hi.leave ht (hends code hcode) hl

/-! ## The use of a listener -/

/-- The listener whose members an action uses. -/
def ListenerAction.listener : ListenerAction → Option ListenerId
  | .activate l | .stop l | .registerNotification l | .startThread l _ => some l
  | .hasNotification l | .unregister l | .joinable l | .isCurrentThread l => some l
  | .detach l | .join l => some l
  | _ => none

/-- The listener whose `EventListenerState` an action uses. -/
def ListenerAction.state : ListenerAction → Option ListenerId
  | .lock (.mutex_ l) | .unlock (.mutex_ l) | .check l | .wake l => some l
  | .enqueue l _ | .reportQueueFailure l | .activate l | .stop l => some l
  | _ => none

section Use

variable {core : CppCore} {chars : CharUpper} {ls : List ModuleLabel} {s : ModuleSys}

/-- The state after a run, with what each call has. -/
theorem kept (h : Runs (eventModule core chars) UnregisterWaits {} ls s) :
    ∃ gs, Keeping ls gs s.shared ∧ (keepingOutline core chars).Matches s.threads gs :=
  (keepingOutline core chars).runs h

section Steps

variable {gs : Custodies} {w : EventModule} {t : Thread} {c : ModuleCall} {g : Custody}
  {l : ListenerId}

/-- The listener exists. -/
def Alive (ls : List ModuleLabel) (l : ListenerId) : Prop := l ∈ made ls ∧ l ∉ destroyed ls

namespace Keeping

theorem alive_of_owner (h : Keeping ls gs w) {own : ListenerId → Place Thread}
    (howners : Owners (destroyed ls) own gs w) (hnowhere : own l ≠ .nowhere)
    (hended : own l ≠ .gone) : Alive ls l := by
  constructor
  · rw [h.begun, ← Nat.not_le, ← howners.nowhere]
    exact hnowhere
  · rw [← howners.gone]
    exact hended

/-- What a call has, and what it has stored under the mutex, exists. -/
theorem alive_of_has (h : Keeping ls gs w) (ht : gs t = some (c, g)) (hhas : g.Has l) :
    Alive ls l := by
  obtain ⟨own, howners⟩ := h.owners
  have hcall := howners.has ht hhas
  exact h.alive_of_owner howners (by rw [hcall]; nofun) (by rw [hcall]; nofun)

theorem alive_of_stored (h : Keeping ls gs w) (ht : gs t = some (c, g))
    (hstored : g.stored = some l) (hmem : .g_event_listener_mutex ∈ g.locks) : Alive ls l := by
  obtain ⟨own, howners⟩ := h.owners
  have hknows := h.knows t c g ht
  have hemptied : g.emptied = true := hknows.stored (by rw [hstored]; nofun)
  have hslot : own l = .kept :=
    (howners.slot l).mpr ((hknows.emptied hmem hemptied).trans hstored)
  exact h.alive_of_owner howners (by rw [hslot]; nofun) (by rw [hslot]; nofun)

theorem alive_of_notifies (h : Keeping ls gs w) (ht : gs t = some (c, g))
    (hrole : g.role = .notifies l) : Alive ls l := by
  obtain ⟨own, howners⟩ := h.owners
  have hregistered := (h.knows t c g ht).notifies l hrole
  have hoff : ∀ {owner : Place Thread}, own l = owner → owner ≠ .nowhere ∧ owner ≠ .gone := by
    rintro owner rfl
    constructor <;> intro howner
    · rw [((howners.under l).off (Or.inl howner)).1] at hregistered
      cases hregistered
    · rw [((howners.under l).off (Or.inr howner)).1] at hregistered
      cases hregistered
  exact h.alive_of_owner howners (hoff rfl).1 (hoff rfl).2

/-- A dispatcher has a listener that was made. -/
theorem made_of_dispatches (h : Keeping ls gs w) (ht : gs t = some (c, g))
    (hrole : g.role = .dispatches l) :
    l ∈ made ls ∧ ∃ turns, programs.running ls t = some (.dispatch l turns) := by
  obtain ⟨own, howners⟩ := h.owners
  obtain ⟨_, hports⟩ := (h.knows t c g ht).dispatches l hrole
  constructor
  · rw [h.begun, ← Nat.not_le, ← howners.nowhere]
    intro hnowhere
    rw [(howners.under l).blank hnowhere] at hports
    cases hports
  · rw [h.running_of ht]
    rw [h.role t c g ht] at hrole
    cases c with
    | dispatch l' turns =>
      cases hrole
      exact ⟨turns, rfl⟩
    | set | deviceNotification => cases hrole

/-- A call that has a pointer to the state of a listener is the dispatcher of the listener, or the
listener exists. -/
theorem reaches (h : Keeping ls gs w) (ht : gs t = some (c, g)) (hreach : g.Reaches l) :
    l ∈ made ls ∧
      (l ∈ destroyed ls → ∃ turns, programs.running ls t = some (.dispatch l turns)) := by
  have hlives : Alive ls l → l ∈ made ls ∧
      (l ∈ destroyed ls → ∃ turns, programs.running ls t = some (.dispatch l turns)) :=
    fun halive => ⟨halive.1, fun hended => absurd hended halive.2⟩
  rcases hreach with hrole | hrole | hhas | ⟨hstored, hmem⟩
  · exact hlives (h.alive_of_notifies ht hrole)
  · obtain ⟨hmade, hdispatch⟩ := h.made_of_dispatches ht hrole
    exact ⟨hmade, fun _ => hdispatch⟩
  · exact hlives (h.alive_of_has ht hhas)
  · exact hlives (h.alive_of_stored ht hstored hmem)

end Keeping

/-- What the protocol asks of a call that uses the members of a listener. -/
theorem has_of_listener {e : ListenerAction} (ha : custody.allows g e)
    (he : e.listener = some l) :
    g.Has l ∨ (g.stored = some l ∧ .g_event_listener_mutex ∈ g.locks) := by
  cases e with
  | activate => cases he; exact Or.inr ha
  | stop => cases he; exact Or.inl ha
  | registerNotification | startThread => cases he; exact Or.inl (Or.inl ha.1)
  | hasNotification | unregister => cases he; exact Or.inl ha.1
  | joinable | isCurrentThread | detach | join => cases he; exact Or.inl ha.1
  | _ => cases he

theorem reaches_of_state {e : ListenerAction} (ha : custody.allows g e)
    (he : e.state = some l) : g.Reaches l := by
  cases e with
  | lock m | unlock m =>
    cases m with
    | g_event_listener_mutex => cases he
    | mutex_ l' => cases he; exact ha.2
  | check | wake => cases he; exact Or.inr (Or.inl ha.1)
  | enqueue | reportQueueFailure => cases he; exact Or.inl ha
  | activate => cases he; exact Or.inr (Or.inr (Or.inr ha))
  | stop => cases he; exact Or.inr (Or.inr (Or.inl ha))
  | _ => cases he

end Steps

/-- A listener is used from its construction to its end, and its destructor ends once. Later only
its dispatcher uses its state, which it shares. -/
structure UsedInLife (ls : List ModuleLabel) : Prop where
  listener : ∀ l1 l2 t e r l, ls = l1 ++ .did t e r :: l2 → e.listener = some l → Alive l1 l
  state : ∀ l1 l2 t e r l, ls = l1 ++ .did t e r :: l2 → e.state = some l →
    l ∈ made l1 ∧ (l ∈ destroyed l1 → ∃ turns, running l1 t = some (.dispatch l turns))
  once : (destroyed ls).Nodup

/-- In every run in which Windows ends no notification that runs, no listener is used before it is
made or after it is destroyed, and none is destroyed twice. -/
theorem a_listener_is_used_in_its_life (core : CppCore) (chars : CharUpper)
    {ls : List ModuleLabel} {s : ModuleSys}
    (h : Runs (eventModule core chars) UnregisterWaits {} ls s) : UsedInLife ls := by
  -- before each action its call has what the protocol asks for
  have hbefore : ∀ {l1 l2 t e r}, ls = l1 ++ .did t e r :: l2 →
      ∃ gs w c g, Keeping l1 gs w ∧ gs t = some (c, g) ∧ custody.allows g e := by
    intro l1 l2 t e r heq
    obtain ⟨s1, s2, hr, _, hstep⟩ := h.split heq
    obtain ⟨gs, hi, hm⟩ := kept hr
    cases hstep with
    | did ht hp =>
      obtain ⟨g, hg, hf⟩ := Outline.some_of_some hm ht
      exact ⟨gs, s1.shared, _, g, hi, hg, hf.1⟩
  constructor
  · intro l1 l2 t e r l heq he
    obtain ⟨gs, w, c, g, hi, hg, ha⟩ := hbefore heq
    rcases has_of_listener ha he with hhas | ⟨hstored, hmem⟩
    · exact hi.alive_of_has hg hhas
    · exact hi.alive_of_stored hg hstored hmem
  · intro l1 l2 t e r l heq he
    obtain ⟨gs, w, c, g, hi, hg, ha⟩ := hbefore heq
    exact hi.reaches hg (reaches_of_state ha he)
  · obtain ⟨gs, hi, _⟩ := kept h
    obtain ⟨own, howners⟩ := hi.owners
    exact howners.once

/-- The callback of the listener 0 destroys it, and another call destroys the listener 1. -/
theorem two_listeners_are_used_in_their_lives :
    ∃ ls s, Runs (eventModule sampleCore plainUnits) UnregisterWaits {} ls s ∧
      made ls = [0, 1, 2] ∧ destroyed ls = [0, 1] ∧ UsedInLife ls := by
  obtain ⟨ls, s, hr, hx⟩ := Sys.moves_exists (eventModule sampleCore plainUnits) UnregisterWaits {}
    (replacements ++ retirements) (fun ls _ => (made ls, destroyed ls))
    (x := ([0, 1, 2], [0, 1])) rfl
  simp only [Prod.mk.injEq] at hx
  exact ⟨ls, s, hr, hx.1, hx.2, a_listener_is_used_in_its_life sampleCore plainUnits hr⟩

/-! ## Between the calls -/

/-- What exists of the listeners: the one in `g_event_listener`, with its notification and its
thread. -/
structure NothingLeaks (ls : List ModuleLabel) (w : EventModule) : Prop where
  alive : ∀ l, Alive ls l ↔ w.g_event_listener = some l
  registered : ∀ l, (w.listeners l).registered = true ↔ w.g_event_listener = some l
  joinable : ∀ l, (w.listeners l).joinable = true ↔ w.g_event_listener = some l
  notified : ∀ t c l, running ls t = some c → c.role = .notifies l → w.g_event_listener = some l

/-- In every run in which Windows ends no notification that runs, while no thread is inside
`serialSetEventCallback`, whatever failed before, only the current listener exists, is registered
and has a thread to join. -/
theorem nothing_leaks_between_the_calls (core : CppCore) (chars : CharUpper)
    {ls : List ModuleLabel} {s : ModuleSys}
    (h : Runs (eventModule core chars) UnregisterWaits {} ls s)
    (hidle : ∀ t c, running ls t = some c → c.role ≠ .application) :
    NothingLeaks ls s.shared := by
  obtain ⟨gs, hi, hm⟩ := kept h
  obtain ⟨own, howners⟩ := hi.owners
  -- no call has a listener
  have hcall : ∀ l t, own l ≠ .held t := by
    intro l t howner
    obtain ⟨c, g, ht, hhas⟩ := (howners.calls l t).mp howner
    refine (hi.knows t c g ht).without ?_ l hhas
    rw [hi.role t c g ht]
    exact hidle t c (hi.running_of ht)
  have hflags : ∀ l, ((s.shared.listeners l).registered = true ↔ own l = .kept) ∧
      ((s.shared.listeners l).joinable = true ↔ own l = .kept) := by
    intro l
    obtain ⟨_, hoff, hon⟩ := howners.under l
    cases howner : own l with
    | held t => exact absurd howner (hcall l t)
    | kept => simp [hon howner]
    | nowhere => simp [hoff (Or.inl howner)]
    | gone => simp [hoff (Or.inr howner)]
  refine ⟨fun l => ⟨fun halive => ?_, fun hslot => ?_⟩, fun l => ?_, fun l => ?_, ?_⟩
  · rw [← howners.slot]
    obtain ⟨hmade, hended⟩ := halive
    cases howner : own l with
    | kept => rfl
    | held t => exact absurd howner (hcall l t)
    | nowhere =>
      rw [hi.begun, ← Nat.not_le, ← howners.nowhere] at hmade
      exact absurd howner hmade
    | gone =>
      rw [← howners.gone] at hended
      exact absurd howner hended
  · have howner := (howners.slot l).mpr hslot
    exact hi.alive_of_owner howners (by rw [howner]; nofun) (by rw [howner]; nofun)
  · rw [(hflags l).1, howners.slot]
  · rw [(hflags l).2, howners.slot]
  · intro t c l hrunning hrole
    rw [hi.running t, Option.map_eq_some_iff] at hrunning
    obtain ⟨⟨c', g⟩, ht, rfl⟩ := hrunning
    rw [← howners.slot, ← (hflags l).1]
    exact (hi.knows t c' g ht).notifies l ((hi.role t c' g ht).trans hrole)

/-- After the calls above only the listener 2 exists. -/
theorem one_listener_is_left :
    ∃ ls s, Runs (eventModule sampleCore plainUnits) UnregisterWaits {} ls s ∧
      s.shared.g_event_listener = some 2 ∧ NothingLeaks ls s.shared := by
  obtain ⟨ls, s, hr, hx⟩ := Sys.moves_exists (eventModule sampleCore plainUnits) UnregisterWaits {}
    (replacements ++ retirements) (fun ls s => (s.shared.g_event_listener,
      decide (∀ t ∈ callers ls, ∀ c ∈ running ls t, c.role ≠ .application)))
    (x := (some 2, true)) rfl
  simp only [Prod.mk.injEq, decide_eq_true_eq] at hx
  exact ⟨ls, s, hr, hx.1, nothing_leaks_between_the_calls sampleCore plainUnits hr
    (forall_running.mpr hx.2)⟩

end Use

end cpp_bindings_windows
