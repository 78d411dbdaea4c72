-- What one action of a call does to the module of the event callback: every
-- step of every call is one of these deeds, with what it needs and what it
-- leaves behind. The invariants of the module are argued about deeds only.
import SerialBindings.Tending

open programs

namespace cpp_bindings_windows

/-! ## The flags of a listener -/

/-- The two flags that say how far a listener is. -/
def EventListenerState.SameFlags (state state' : EventListenerState) : Prop :=
  state'.active_ = state.active_ ∧ state'.stopped_ = state.stopped_

/-- A turn of the dispatcher changes neither flag. -/
theorem EventListenerState.check_flags (state : EventListenerState) :
    state.SameFlags state.check.2 := by
  unfold check SameFlags
  split
  · split
    · exact ⟨rfl, rfl⟩
    · split
      · exact ⟨rfl, rfl⟩
      · split
        · exact ⟨rfl, rfl⟩
        · exact ⟨rfl, rfl⟩
  · exact ⟨rfl, rfl⟩

/-- A turn that finds the listener ready, and not stopped, finds it active. -/
theorem EventListenerState.active_of_check {state : EventListenerState} {turn : Turn}
    (h : state.check.1 = turn) (hawake : turn ≠ .asleep) (hstopped : turn ≠ .stopped) :
    state.active_ = true ∧ state.stopped_ = false := by
  unfold check ready at h
  split at h
  · rename_i hready
    split at h
    · exact absurd h.symm hstopped
    · rename_i hnot
      rw [Bool.not_eq_true] at hnot
      rw [hnot, Bool.false_or, Bool.and_eq_true] at hready
      exact ⟨hready.1, hnot⟩
  · exact absurd h.symm hawake

/-- A turn that ends the dispatcher finds the listener stopped. -/
theorem EventListenerState.stopped_of_check {state : EventListenerState}
    (h : state.check.1 = .stopped) : state.stopped_ = true := by
  unfold check at h
  split at h
  · split at h
    · assumption
    · split at h
      · cases h
      · split at h
        · cases h
        · cases h
  · cases h

theorem EventListenerState.enqueue_flags (state : EventListenerState)
    (notification : Notification) : state.SameFlags (state.enqueue notification) := by
  unfold enqueue
  split
  · exact ⟨rfl, rfl⟩
  · exact ⟨rfl, rfl⟩

/-! ## The deeds -/

/-- What a step tells of the listeners: a listener that was made, an exception in a `try` block,
a `try` block that was left without one, the listener that a call moved out, the one that it
stored. -/
inductive News
  | nothing
  | made (l : ListenerId)
  | failed
  | passed
  | displaced (previous : Option ListenerId)
  | stored (l : ListenerId)

def newsOf : (e : ListenerAction) → ListenerAnswer e → News
  | .makeListener, .ok l => .made l
  | .makeListener, .error _ => .failed
  | .registerNotification _, some _ => .failed
  | .interfaceListSize, .error _ => .failed
  | .interfaceList _, .failed _ => .failed
  | .portName _, .error error => if error.EndsSnapshot then .failed else .nothing
  | .startThread .., some _ => .failed
  | .startThread .., none => .passed
  | .lock .g_event_listener_mutex, _ => .passed
  | .moveListener, previous => .displaced previous
  | .storeListener (some l), _ => .stored l
  | _, _ => .nothing

/-- One step of the call of the thread `t` that has the part `g`, in the module `w`. -/
inductive Deed (t : Thread) (g : Part) (w : EventModule) : News → Part → EventModule → Prop
  | nothing : g.inUser = false → Deed t g w .nothing g w
  | fails : g.inUser = false → g.stage = .making → Deed t g w .failed g.fail w
  /-- An interface that a dispatcher cannot resolve. -/
  | unresolved (l : ListenerId) : g.inUser = false → g.stage = .dispatching l →
      Deed t g w .failed g w
  | locksGlobal : g.inUser = false →
      g.stage = .ready ∨ (g.stage = .making ∧ g.mine = none ∧ g.failed = false) →
      g.locked = none → w.holder .g_event_listener_mutex = none →
      Deed t g w .passed { g with stage := .locked }
        (w.withHolder .g_event_listener_mutex (some t))
  | unlocksGlobal : g.inUser = false → g.stage = .installed →
      Deed t g w .nothing { g with stage := .retiring } (w.withHolder .g_event_listener_mutex none)
  | locks (l : ListenerId) : g.inUser = false → g.locked = none → w.holder (.mutex_ l) = none →
      Deed t g w .nothing { g with locked := some l } (w.withHolder (.mutex_ l) (some t))
  | unlocks (l : ListenerId) : g.inUser = false → g.locked = some l →
      Deed t g w .nothing { g with locked := none } (w.withHolder (.mutex_ l) none)
  | sleeps (l : ListenerId) : g.inUser = false → g.stage = .dispatching l → g.locked = some l →
      Deed t g w .nothing { g with locked := none, took := false } (w.withHolder (.mutex_ l) none)
  /-- A native notification. -/
  | notes (l : ListenerId) (f : EventListenerState → EventListenerState) :
      g.inUser = false → g.stage = .elsewhere →
        (∀ state : EventListenerState, state.SameFlags (f state)) →
      Deed t g w .nothing g (w.withState l f)
  | turns (l : ListenerId) (live took found : Bool) : g.inUser = false → g.stage = .dispatching l →
      g.locked = some l →
      (live = true → g.live = true ∨ (w.listeners l).state.active_ = true) →
      (took = true → live = true ∧ (w.listeners l).state.stopped_ = false) →
      (found = true → g.found = true ∨ (w.listeners l).state.stopped_ = true) →
      Deed t g w .nothing { g with live, took, found } (w.withState l (·.check.2))
  /-- A callback of the application. -/
  | calls : g.inUser = false → g.locked = none →
      (∃ l, g.stage = .dispatching l ∧ (g.live = true ∨ g.took = true)) ∨
        (g.stage = .making ∨ g.stage = .released) →
      Deed t g w .nothing { g with inUser := true, took := false } (w.withUser t true)
  | returns : g.inUser = true → w.busy t.inner = false →
      Deed t g w .nothing { g with inUser := false } (w.withUser t false)
  | makes : g.inUser = false → g.stage = .making → g.mine = none →
      Deed t g w (.made w.made) { g with mine := some w.made } { w with made := w.made + 1 }
  | registers (l : ListenerId) : g.inUser = false → g.stage = .making → g.mine = some l →
      Deed t g w .nothing g (w.modify l ({ · with registered := true }))
  | starts (l : ListenerId) (ports : PortMap) : g.inUser = false → g.stage = .making →
      g.mine = some l → g.failed = false →
      Deed t g w .passed { g with stage := .ready }
        (w.modify l ({ · with ports := some ports, joinable := true }))
  | movesNone : g.inUser = false → g.stage = .locked → w.g_event_listener = none →
      Deed t g w (.displaced none) { g with stage := .emptied, old := none }
        { w with g_event_listener := none }
  | moves (p : ListenerId) : g.inUser = false → g.stage = .locked → w.g_event_listener = some p →
      Deed t g w (.displaced (some p)) { g with stage := .moved, old := some p }
        { w with g_event_listener := none }
  | stopsOld (l : ListenerId) : g.inUser = false → g.stage = .moved → g.old = some l →
      Deed t g w .nothing { g with stage := .emptied } (w.withState l (·.stop))
  | stopsAgain (l : ListenerId) : g.inUser = false → g.stage = .retiring → g.old = some l →
      Deed t g w .nothing g (w.withState l (·.stop))
  | stopsMine (l : ListenerId) : g.inUser = false → g.stage = .making → g.mine = some l →
      Deed t g w .nothing { g with stage := .failing } (w.withState l (·.stop))
  | storesNone : g.inUser = false → g.stage = .emptied → g.mine = none →
      Deed t g w .nothing { g with stage := .installed, mine := none, fresh := none }
        { w with g_event_listener := none }
  | stores (l : ListenerId) : g.inUser = false → g.stage = .emptied → g.mine = some l →
      Deed t g w (.stored l) { g with stage := .stored, mine := none, fresh := some l }
        { w with g_event_listener := some l }
  | activates (l : ListenerId) : g.inUser = false → g.stage = .stored → g.fresh = some l →
      Deed t g w .nothing { g with stage := .installed } (w.withState l (·.activate))
  | releases (l : ListenerId) : g.inUser = false → g.stage = .failing → g.mine = some l →
      (w.listeners l).registered = false → Deed t g w .nothing { g with stage := .released } w
  | unregistersMine (l : ListenerId) : g.inUser = false → g.stage = .failing → g.mine = some l →
      Deed t g w .nothing { g with stage := .released }
        (w.modify l ({ · with registered := false }))
  | unregistersOld (l : ListenerId) : g.inUser = false → g.stage = .retiring → g.old = some l →
      Deed t g w .nothing g (w.modify l ({ · with registered := false }))
  | findsItself (l : ListenerId) : g.inUser = false → g.stage = .retiring → g.old = some l →
      t.os = .dispatcher l → Deed t g w .nothing { g with stage := .detaching } w
  | findsAnother (l : ListenerId) : g.inUser = false → g.stage = .retiring → g.old = some l →
      t.os ≠ .dispatcher l → Deed t g w .nothing { g with stage := .joining } w
  | detaches (l : ListenerId) : g.inUser = false → g.stage = .detaching → g.old = some l →
      Deed t g w .nothing { g with stage := .detached } (w.modify l ({ · with joinable := false }))
  | joins (l : ListenerId) : g.inUser = false → g.stage = .joining → g.old = some l →
      (w.listeners l).finished = true →
      Deed t g w .nothing { g with stage := .joined } (w.modify l ({ · with joinable := false }))

/-- The return from a callback of the application. -/
theorem deed_of_return {t : Thread} {g : Part} {w w' : EventModule} (hin : g.inUser = true)
    (hp : EventModule.fromUser w t = some w') :
    Deed t g w .nothing { g with inUser := false } w' := by
  unfold EventModule.fromUser at hp
  split at hp
  · cases hp
  · rename_i hinner
    cases hp
    exact .returns hin (Bool.not_eq_true _ ▸ hinner)

/-- A turn of the dispatcher. -/
theorem deed_of_check {t : Thread} {g : Part} {w w' : EventModule} {l : ListenerId} {turn : Turn}
    (hout : g.inUser = false) (ha : g.stage = .dispatching l ∧ g.locked = some l)
    (hp : EventModule.perform t w (.check l) turn = some w') :
    ∃ g', tending.next g (.check l) turn = some g' ∧ Deed t g w .nothing g' w' := by
  simp only [EventModule.perform] at hp
  split at hp
  · rename_i hturn
    cases hp
    cases turn with
    | asleep => exact ⟨_, rfl, .sleeps l hout ha.1 ha.2⟩
    | stopped =>
      have hstopped := EventListenerState.stopped_of_check hturn
      exact ⟨_, rfl, .turns l g.live false true hout ha.1 ha.2 Or.inl nofun fun _ =>
        Or.inr hstopped⟩
    | queueFailed =>
      have hactive := EventListenerState.active_of_check hturn nofun nofun
      exact ⟨_, rfl, .turns l true false g.found hout ha.1 ha.2 (fun _ => Or.inr hactive.1) nofun
        Or.inl⟩
    | taken notification =>
      have hactive := EventListenerState.active_of_check hturn nofun nofun
      exact ⟨_, rfl, .turns l true true g.found hout ha.1 ha.2 (fun _ => Or.inr hactive.1)
        (fun _ => ⟨rfl, hactive.2⟩) Or.inl⟩
  · cases hp

/-- An interface that cannot be resolved ends the snapshot, unless it is gone. -/
theorem deed_of_portName {t : Thread} {g : Part} {w : EventModule} (hout : g.inUser = false)
    (ha : g.stage = .making ∨ ∃ l, g.stage = .dispatching l) (path : WString)
    (resolved : Except PortError String) :
    ∃ g', tending.next g (.portName path) resolved = some g' ∧
      Deed t g w (newsOf (.portName path) resolved) g' w := by
  cases resolved with
  | ok port => exact ⟨g, rfl, .nothing hout⟩
  | error error =>
    have hnews : newsOf (.portName path) (.error error) =
      if error.EndsSnapshot = true then .failed else .nothing := rfl
    rw [hnews]
    cases hends : error.EndsSnapshot with
    | false =>
      refine ⟨g, ?_, .nothing hout⟩
      change some (if g.stage = .making ∧ error.EndsSnapshot = true then g.fail else g) = some g
      rw [hends, if_neg (fun h => nomatch h.2)]
    | true =>
      rcases ha with hstage | ⟨l, hstage⟩
      · refine ⟨g.fail, ?_, .fails hout hstage⟩
        change some (if g.stage = .making ∧ error.EndsSnapshot = true then g.fail else g) = _
        rw [hends, if_pos ⟨hstage, rfl⟩]
      · refine ⟨g, ?_, .unresolved l hout hstage⟩
        change some (if g.stage = .making ∧ error.EndsSnapshot = true then g.fail else g) = _
        rw [hstage, if_neg (fun h => nomatch h.1)]

/-- A replacement that was not registered is released without a call of Windows. -/
theorem deed_of_hasNotification {t : Thread} {g : Part} {w w' : EventModule} {l : ListenerId}
    {registered : Bool} (hout : g.inUser = false)
    (ha : (g.stage = .retiring ∧ g.old = some l) ∨ (g.stage = .failing ∧ g.mine = some l))
    (hp : EventModule.perform t w (.hasNotification l) registered = some w') :
    ∃ g', tending.next g (.hasNotification l) registered = some g' ∧
      Deed t g w .nothing g' w' := by
  simp only [EventModule.perform] at hp
  split at hp
  · rename_i hregistered
    cases hp
    rcases ha with ⟨hstage, hold⟩ | ⟨hstage, hmine⟩
    · refine ⟨g, ?_, .nothing hout⟩
      change some _ = some g
      rw [hstage, if_neg (fun h => nomatch h.1), ← hstage]
    · cases registered with
      | true =>
        refine ⟨g, ?_, .nothing hout⟩
        change some _ = some g
        rw [if_neg (fun h => nomatch h.2)]
      | false =>
        refine ⟨_, rfl, ?_⟩
        rw [if_pos ⟨hstage, rfl⟩]
        exact .releases l hout hstage hmine hregistered
  · cases hp

/-- Every step that a call may do and that the module can do is a deed, and what the call has
after it is what its deed leaves. A displaced listener still has its thread, and a replacement
that failed has none. -/
theorem deed_of_did {t : Thread} {g : Part} {w w' : EventModule} {e : ListenerAction}
    {r : ListenerAnswer e} (ha : tending.allows g e) (hp : EventModule.perform t w e r = some w')
    (hjoinable : ∀ l, e = .joinable l →
      (w.listeners l).joinable = decide (g.stage = .retiring)) :
    ∃ g', tending.next g e r = some g' ∧ Deed t g w (newsOf e r) g' w' := by
  obtain ⟨hout, ha⟩ := ha
  cases e with
  | lock mutex =>
    simp only [EventModule.perform] at hp
    split at hp
    · rename_i hheld
      cases hp
      cases mutex with
      | g_event_listener_mutex => exact ⟨_, rfl, .locksGlobal hout ha.1 ha.2 hheld⟩
      | mutex_ l => exact ⟨_, rfl, .locks l hout ha hheld⟩
    · cases hp
  | unlock mutex =>
    simp only [EventModule.perform] at hp
    split at hp
    · cases hp
      cases mutex with
      | g_event_listener_mutex => exact ⟨_, rfl, .unlocksGlobal hout ha.1⟩
      | mutex_ l => exact ⟨_, rfl, .unlocks l hout ha⟩
    · cases hp
  | enqueue l notification =>
    cases hp
    cases r with
    | none =>
      exact ⟨g, rfl, .notes l _ hout ha fun state => state.enqueue_flags notification⟩
    | some what => exact ⟨g, rfl, .nothing hout⟩
  | reportQueueFailure l =>
    cases hp
    exact ⟨g, rfl, .notes l _ hout ha fun _ => ⟨rfl, rfl⟩⟩
  | activate l =>
    cases hp
    exact ⟨_, rfl, .activates l hout ha.1 ha.2⟩
  | stop l =>
    cases hp
    obtain ⟨stage, locked, inUser, mine, fresh, old, live, took, failed⟩ := g
    rcases ha with ⟨hstage, hold⟩ | ⟨hstage, hold⟩ | ⟨hstage, hmine, hfailed⟩
    · cases hstage
      exact ⟨_, rfl, .stopsOld l hout rfl hold⟩
    · cases hstage
      exact ⟨_, rfl, .stopsAgain l hout rfl hold⟩
    · cases hstage
      exact ⟨_, rfl, .stopsMine l hout rfl hmine⟩
  | check l => exact deed_of_check hout ha hp
  | wake l =>
    simp only [EventModule.perform] at hp
    split at hp
    · rename_i hheld
      cases hp
      exact ⟨_, rfl, .locks l hout ha.2 hheld⟩
    · cases hp
  | portName path =>
    cases hp
    exact deed_of_portName hout ha path r
  | callback l path event port =>
    cases hp
    exact ⟨_, rfl, .calls hout ha.2.1 (Or.inl ⟨l, ha.1, Or.inr ha.2.2⟩)⟩
  | reportError l about message =>
    cases hp
    exact ⟨_, rfl, .calls hout ha.2.1 (Or.inl ⟨l, ha.1, Or.inl ha.2.2⟩)⟩
  | invokeError callback code message =>
    cases hp
    exact ⟨_, rfl, .calls hout ha.2.1 (Or.inr (ha.1.imp_left And.left))⟩
  | callbackReturned l => exact ⟨_, rfl, deed_of_return hout hp⟩
  | reportReturned l about => exact ⟨_, rfl, deed_of_return hout hp⟩
  | errorReturned => exact ⟨_, rfl, deed_of_return hout hp⟩
  | loadErrorCallback =>
    cases hp
    exact ⟨g, rfl, .nothing hout⟩
  | makeListener =>
    cases r with
    | error what =>
      cases hp
      exact ⟨_, rfl, .fails hout ha.1⟩
    | ok l =>
      simp only [EventModule.perform] at hp
      split at hp
      · rename_i hmade
        cases hp
        rw [hmade]
        exact ⟨_, rfl, .makes hout ha.1 ha.2.1⟩
      · cases hp
  | registerNotification l =>
    cases hp
    cases r with
    | none => exact ⟨g, rfl, .registers l hout ha.1 ha.2.1⟩
    | some what => exact ⟨_, rfl, .fails hout ha.1⟩
  | interfaceListSize =>
    cases hp
    cases r with
    | ok size => exact ⟨g, rfl, .nothing hout⟩
    | error error => exact ⟨_, rfl, .fails hout ha⟩
  | interfaceList size =>
    cases hp
    cases r with
    | bufferSmall => exact ⟨g, rfl, .nothing hout⟩
    | listed buffer => exact ⟨g, rfl, .nothing hout⟩
    | failed error => exact ⟨_, rfl, .fails hout ha⟩
  | startThread l ports =>
    cases hp
    cases r with
    | none => exact ⟨_, rfl, .starts l ports hout ha.1 ha.2.1 ha.2.2⟩
    | some what => exact ⟨_, rfl, .fails hout ha.1⟩
  | capturedPorts l =>
    simp only [EventModule.perform] at hp
    split at hp
    · cases hp
      exact ⟨g, rfl, .nothing hout⟩
    · cases hp
  | moveListener =>
    simp only [EventModule.perform] at hp
    split at hp
    · rename_i hprevious
      cases hp
      cases r with
      | none => exact ⟨_, rfl, .movesNone hout ha hprevious⟩
      | some p => exact ⟨_, rfl, .moves p hout ha hprevious⟩
    · cases hp
  | storeListener replacement =>
    cases hp
    cases replacement with
    | none => exact ⟨_, rfl, .storesNone hout ha.1 ha.2.symm⟩
    | some l => exact ⟨_, rfl, .stores l hout ha.1 ha.2.symm⟩
  | hasNotification l => exact deed_of_hasNotification hout ha hp
  | unregister l =>
    cases hp
    rcases ha with ⟨hstage, hold⟩ | ⟨hstage, hmine⟩
    · refine ⟨g, ?_, .unregistersOld l hout hstage hold⟩
      change some _ = some g
      rw [hstage, if_neg nofun, ← hstage]
    · refine ⟨_, rfl, ?_⟩
      rw [if_pos hstage]
      exact .unregistersMine l hout hstage hmine
  | joinable l =>
    simp only [EventModule.perform] at hp
    split at hp
    · rename_i hanswer
      cases hp
      refine ⟨g, ?_, .nothing hout⟩
      exact if_pos (hanswer.symm.trans (hjoinable l rfl))
    · cases hp
  | isCurrentThread l =>
    simp only [EventModule.perform] at hp
    split at hp
    · rename_i hos
      cases hp
      cases r with
      | true => exact ⟨_, rfl, .findsItself l hout ha.1 ha.2 (of_decide_eq_true hos)⟩
      | false => exact ⟨_, rfl, .findsAnother l hout ha.1 ha.2 (of_decide_eq_false hos)⟩
    · cases hp
  | detach l =>
    cases hp
    exact ⟨_, rfl, .detaches l hout ha.1 ha.2⟩
  | join l =>
    simp only [EventModule.perform] at hp
    split at hp
    · rename_i hfinished
      cases hp
      exact ⟨_, rfl, .joins l hout ha.1 ha.2.1 hfinished⟩
    · cases hp

end cpp_bindings_windows
