-- Who has a listener. A `std::unique_ptr<EventListener>` is a local variable of a
-- call or stands in `g_event_listener`, and the callback of Windows has a raw
-- pointer to the state. Every call keeps to one protocol about these pointers.
import SerialBindings.EventModule

open programs

namespace cpp_bindings_windows

/-! ## The protocol of a call -/

/-- What a call is to the listeners: a call of the application, a notification that Windows gives
to a listener, or the dispatcher of a listener. -/
inductive Role
  | application
  | notifies (l : ListenerId)
  | dispatches (l : ListenerId)
  deriving DecidableEq

def ModuleCall.role : ModuleCall → Role
  | .set .. => .application
  | .deviceNotification l _ _ => .notifies l
  | .dispatch l _ => .dispatches l

/-- What a call has: its mutexes, the last one first, and its two `std::unique_ptr`s, `replacement`
and `previous`. The replacement may be `registered` and its thread `started`. `quiet` is the
listener whose notification is known to be gone, and `stored` what the call put into
`g_event_listener`, after it `emptied` that. -/
structure Custody where
  role : Role
  locks : List Mutex := []
  mine : Option ListenerId := none
  old : Option ListenerId := none
  registered : Bool := false
  started : Bool := false
  quiet : Option ListenerId := none
  emptied : Bool := false
  stored : Option ListenerId := none

namespace Custody

/-- The listener is in the hands of the call. -/
def Has (g : Custody) (l : ListenerId) : Prop := g.mine = some l ∨ g.old = some l

/-- The call has a pointer to the state of the listener. -/
def Reaches (g : Custody) (l : ListenerId) : Prop :=
  g.role = .notifies l ∨ g.role = .dispatches l ∨ g.Has l ∨
    (g.stored = some l ∧ .g_event_listener_mutex ∈ g.locks)

/-- The listener is destroyed, so nobody has it. -/
def drop (g : Custody) (l : ListenerId) : Custody :=
  { g with
    mine := if g.mine = some l then none else g.mine
    old := if g.old = some l then none else g.old }

def allows (g : Custody) : ListenerAction → Prop
  | .lock .g_event_listener_mutex => g.role = .application ∧ g.locks = [] ∧ g.emptied = false
  | .lock (.mutex_ l) => (g.locks = [] ∨ g.locks = [.g_event_listener_mutex]) ∧ g.Reaches l
  | .unlock .g_event_listener_mutex => g.locks = [.g_event_listener_mutex]
  | .unlock (.mutex_ l) => g.locks.head? = some (.mutex_ l) ∧ g.Reaches l
  | .enqueue l _ | .reportQueueFailure l => g.role = .notifies l
  | .activate l => g.stored = some l ∧ .g_event_listener_mutex ∈ g.locks
  | .stop l => g.Has l
  | .check l => g.role = .dispatches l ∧ g.locks = [.mutex_ l]
  | .wake l | .callback l _ _ _ | .reportError l _ _ => g.role = .dispatches l ∧ g.locks = []
  | .callbackReturned l | .reportReturned l _ => g.role = .dispatches l ∧ g.locks = []
  | .invokeError .. | .errorReturned => g.role = .application ∧ g.locks = []
  | .capturedPorts l => g.role = .dispatches l
  | .makeListener => g.role = .application ∧ g.mine = none ∧ g.registered = false ∧
      g.started = false
  | .registerNotification l | .startThread l _ => g.mine = some l ∧ g.quiet = none
  | .moveListener => g.role = .application ∧ g.locks = [.g_event_listener_mutex] ∧ g.old = none ∧
      g.emptied = false ∧ g.quiet = none
  | .storeListener replacement => g.locks = [.g_event_listener_mutex] ∧ g.emptied = true ∧
      g.stored = none ∧ g.quiet = none ∧ replacement = g.mine ∧
      (replacement ≠ none → g.registered = true ∧ g.started = true)
  | .hasNotification l | .unregister l => g.Has l ∧ g.locks = []
  | .joinable l | .isCurrentThread l | .detach l | .join l =>
    g.Has l ∧ g.quiet = some l ∧ g.locks = []
  | _ => True

def next (g : Custody) : (e : ListenerAction) → ListenerAnswer e → Option Custody
  | .lock m, _ => some { g with locks := m :: g.locks }
  | .wake l, _ => some { g with locks := .mutex_ l :: g.locks }
  | .unlock _, _ | .check _, .asleep => some { g with locks := g.locks.tail }
  | .makeListener, .ok l => some { g with mine := some l }
  | .registerNotification _, thrown => some { g with registered := thrown.isNone }
  | .startThread .., thrown => some { g with started := thrown.isNone }
  | .moveListener, previous => some { g with old := previous, emptied := true }
  | .storeListener replacement, _ => some { g with mine := none, stored := replacement }
  | .hasNotification l, registered =>
    some { g with quiet := if registered then g.quiet else some l }
  | .unregister l, _ => some { g with quiet := some l }
  | .joinable l, joinable => some (if joinable then g else g.drop l)
  | .detach l, _ | .join l, _ => some (g.drop l)
  | _, _ => some g

/-- A call with its replacement, at the end of the `try` block. -/
def holding (replacement : Option ListenerId) : Custody where
  role := .application
  mine := replacement
  registered := replacement.isSome
  started := replacement.isSome

/-- A call that returns has nothing. -/
structure Ends (g : Custody) : Prop where
  locks : g.locks = []
  mine : g.mine = none
  old : g.old = none

end Custody

def custody : Protocol ListenerAction ListenerAnswer Custody := ⟨Custody.allows, Custody.next⟩

/-- Where each call starts. -/
def ModuleCall.custody (c : ModuleCall) : Custody := { role := c.role }

section Programs

variable {α : Type} {Q : Custody → α → Prop} {g : Custody} {l : ListenerId}

/-- The rule for an action that leaves what the call has. -/
theorem custody_same {e : ListenerAction} {k : ListenerAnswer e → Listening α}
    (hallows : custody.allows g e) (hnext : ∀ r, custody.next g e r = some g)
    (h : ∀ r, Follows custody Q (k r) g) : Follows custody Q (.act e k) g :=
  follows_known hallows hnext h

/-- A method of the state holds the `mutex_` for its one action. -/
theorem method_keeps {e : ListenerAction} {f : ListenerAnswer e → Listening α}
    (hlocks : g.locks = [] ∨ g.locks = [.g_event_listener_mutex]) (hreach : g.Reaches l)
    (hallows : custody.allows { g with locks := .mutex_ l :: g.locks } e)
    (hnext : ∀ (g : Custody) r, custody.next g e r = some g)
    (hf : ∀ r, Follows custody Q (f r) g) :
    Follows custody Q (listener.guarded (.mutex_ l) (listener.perform e) >>= f) g := by
  have hinside : ({ g with locks := .mutex_ l :: g.locks } : Custody).Reaches l := by
    rcases hreach with h | h | h | ⟨h, hmem⟩
    · exact Or.inl h
    · exact Or.inr (Or.inl h)
    · exact Or.inr (Or.inr (Or.inl h))
    · exact Or.inr (Or.inr (Or.inr ⟨h, List.mem_cons_of_mem _ hmem⟩))
  refine follows_known ⟨hlocks, hreach⟩ (fun _ => rfl) fun _ => ?_
  refine follows_known hallows (hnext _) fun r => ?_
  exact follows_known ⟨rfl, hinside⟩ (fun _ => rfl) fun _ => hf r

/-! ## Notifications -/

theorem deviceNotification_keeps (chars : CharUpper) (l : ListenerId) (action : Nat)
    (data : CM_NOTIFY_EVENT_DATA) :
    Follows custody (fun g' _ => g'.Ends) (listener.deviceNotification chars l action data)
      { role := .notifies l } := by
  have hends : ({ role := .notifies l } : Custody).Ends := ⟨rfl, rfl, rfl⟩
  unfold listener.deviceNotification
  split
  · exact hends
  · unfold listener.enqueue
    refine method_keeps (Or.inl rfl) (Or.inl rfl) rfl (fun _ _ => rfl) fun thrown => ?_
    cases thrown with
    | none => exact hends
    | some what =>
      exact method_keeps (Or.inl rfl) (Or.inl rfl) rfl (fun _ _ => rfl) fun _ => hends

/-! ## The dispatcher -/

theorem reportError_keeps {about : Option WString} {message : String} {f : Unit → Listening α}
    (hf : Follows custody Q (f ()) { role := .dispatches l }) :
    Follows custody Q (listener.reportError l about message >>= f) { role := .dispatches l } := by
  refine custody_same ⟨rfl, rfl⟩ (fun _ => rfl) fun _ => ?_
  exact custody_same ⟨rfl, rfl⟩ (fun _ => rfl) fun _ => hf

theorem invokeCallback_keeps {path : WString} {event : PortEvent} {port : String}
    {f : Unit → Listening α} (hf : Follows custody Q (f ()) { role := .dispatches l }) :
    Follows custody Q (listener.invokeCallback l path event port >>= f)
      { role := .dispatches l } := by
  refine custody_same ⟨rfl, rfl⟩ (fun _ => rfl) fun _ => ?_
  refine custody_same ⟨rfl, rfl⟩ (fun _ => rfl) fun thrown => ?_
  cases thrown with
  | none => exact hf
  | some what => exact reportError_keeps hf

theorem deliver_keeps (ports : PortMap) (notification : Notification) :
    Follows custody (fun g' _ => g' = { role := .dispatches l })
      (listener.deliver l ports notification) { role := .dispatches l } := by
  unfold listener.deliver
  cases notification.event with
  | kAttached =>
    cases ports.lookup notification.path with
    | some port => rfl
    | none =>
      refine custody_same trivial (fun _ => rfl) fun resolved => ?_
      cases resolved with
      | error error => exact reportError_keeps rfl
      | ok port => exact invokeCallback_keeps rfl
  | kDetached =>
    cases ports.lookup notification.path with
    | none => rfl
    | some port => exact invokeCallback_keeps rfl

/-- A wait that is over has the mutex. -/
theorem wait_keeps (turns : Nat) :
    Follows custody (fun g' turn => turn ≠ .asleep →
        g' = { role := .dispatches l, locks := [.mutex_ l] })
      (listener.wait l turns) { role := .dispatches l, locks := [.mutex_ l] } := by
  induction turns with
  | zero => exact fun hawake => absurd rfl hawake
  | succ turns ih =>
    refine ⟨⟨rfl, rfl⟩, fun turn g' hn => ?_⟩
    cases turn with
    | asleep =>
      cases hn
      exact follows_known ⟨rfl, rfl⟩ (fun _ => rfl) fun _ => ih
    | stopped | queueFailed | taken =>
      cases hn
      exact fun _ => rfl

theorem run_keeps (turns : Nat) (ports : PortMap) :
    Follows custody (fun g' rest => rest = none → g'.Ends) (listener.run l turns ports)
      { role := .dispatches l } := by
  induction turns generalizing ports with
  | zero => nofun
  | succ turns ih =>
    refine follows_known ⟨Or.inl rfl, Or.inr (Or.inl rfl)⟩ (fun _ => rfl) fun _ => ?_
    dsimp only [Prog.bind]
    refine follows_seq (wait_keeps turns) fun g' turn hturn => ?_
    have hunlock : ∀ {f : Unit → Listening (Option PortMap)}, turn ≠ .asleep →
        Follows custody (fun g' rest => rest = none → g'.Ends) (f ()) { role := .dispatches l } →
        Follows custody (fun g' rest => rest = none → g'.Ends) (.act (.unlock (.mutex_ l)) f)
          g' := by
      intro f hawake hf
      rw [hturn hawake]
      exact follows_known ⟨rfl, Or.inr (Or.inl rfl)⟩ (fun _ => rfl) fun _ => hf
    cases turn with
    | asleep => nofun
    | stopped => exact hunlock nofun fun _ => ⟨rfl, rfl, rfl⟩
    | queueFailed => exact hunlock nofun (reportError_keeps (ih ports))
    | taken notification =>
      refine hunlock nofun ?_
      dsimp only [Prog.bind]
      refine follows_seq (deliver_keeps ports notification) ?_
      rintro g'' ports' rfl
      exact ih ports'

/-! ## A replacement -/

theorem lists_passes {e : ListenerAction} (h : e.Lists) : custody.Passes g e := by
  refine ⟨?_, fun r g' hn => ?_⟩
  · cases e <;> first | exact h.elim | trivial
  · cases e <;> first | exact h.elim | exact (Option.some.inj hn).symm

theorem existingPorts_keep (chars : CharUpper) (attempts : Nat) :
    Follows custody (fun g' _ => g' = g) (listener.existingPorts chars attempts) g :=
  follows_of_passes (listener.existingPorts_within chars attempts) (fun _ he => lists_passes he)
    fun _ _ => rfl

/-- A replacement that is made is in the hands of the call, also when an exception came later. -/
theorem makeReplacement_keeps (chars : CharUpper) (attempts : Nat) (callback_function : Callback) :
    Follows custody (fun g' result => ∀ made, result = some made → match made with
        | .error (replacement, _) => g'.role = .application ∧ g'.locks = [] ∧
            g'.mine = replacement ∧ g'.old = none
        | .ok replacement => g' = Custody.holding replacement)
      (listener.makeReplacement chars attempts callback_function) { role := .application } := by
  unfold listener.makeReplacement
  split
  · rintro _ ⟨⟩
    rfl
  refine ⟨⟨rfl, rfl, rfl, rfl⟩, fun made g' hn => ?_⟩
  cases made with
  | error what =>
    cases hn
    rintro _ ⟨⟩
    exact ⟨rfl, rfl, rfl, rfl⟩
  | ok l =>
    cases hn
    refine follows_known ⟨rfl, rfl⟩ (fun _ => rfl) fun thrown => ?_
    cases thrown with
    | some what =>
      rintro _ ⟨⟩
      exact ⟨rfl, rfl, rfl, rfl⟩
    | none =>
      dsimp only [Prog.bind]
      refine follows_seq (existingPorts_keep chars attempts) ?_
      rintro g' result rfl
      match result with
      | none => nofun
      | some (.error error) =>
        rintro _ ⟨⟩
        exact ⟨rfl, rfl, rfl, rfl⟩
      | some (.ok ports) =>
        refine follows_known ⟨rfl, rfl⟩ (fun _ => rfl) fun thrown => ?_
        cases thrown with
        | some what =>
          rintro _ ⟨⟩
          exact ⟨rfl, rfl, rfl, rfl⟩
        | none =>
          rintro _ ⟨⟩
          rfl

/-! ## The end of a listener -/

/-- The destructor: the notification goes first, then the thread, and then nobody has the
listener. -/
theorem destroy_keeps (hlocks : g.locks = []) (hhas : g.Has l) :
    Follows custody (fun g' _ => g' = { g.drop l with quiet := some l })
      (listener.destroy l) g := by
  unfold listener.destroy
  refine method_keeps (e := .stop l) (Or.inl hlocks) (Or.inr (Or.inr (Or.inl hhas))) hhas
    (fun _ _ => rfl) fun _ => ?_
  have hrest : Follows custody (fun g' _ => g' = { g.drop l with quiet := some l })
      (.act (.joinable l) fun answer => if answer = true then
        .act (.isCurrentThread l) fun current => if current = true then
          listener.perform (.detach l) else listener.perform (.join l)
        else .ret ()) { g with quiet := some l } := by
    refine ⟨⟨hhas, rfl, hlocks⟩, fun joinable g' hn => ?_⟩
    cases joinable with
    | false =>
      cases hn
      rfl
    | true =>
      cases hn
      refine custody_same ⟨hhas, rfl, hlocks⟩ (fun _ => rfl) fun current => ?_
      cases current with
      | true => exact follows_known ⟨hhas, rfl, hlocks⟩ (fun _ => rfl) fun _ => rfl
      | false => exact follows_known ⟨hhas, rfl, hlocks⟩ (fun _ => rfl) fun _ => rfl
  refine ⟨⟨hhas, hlocks⟩, fun registered g' hn => ?_⟩
  cases hn
  cases registered with
  | false => exact hrest
  | true => exact follows_known ⟨hhas, hlocks⟩ (fun _ => rfl) fun _ => hrest

theorem reset_keeps {held : Option ListenerId} (hlocks : g.locks = [])
    (hhas : ∀ l, held = some l → g.Has l) (hmine : g.mine = held ∨ g.mine = none)
    (hold : g.old = held ∨ g.old = none) :
    Follows custody (fun g' _ => g'.Ends ∧ g'.role = g.role) (listener.reset held) g := by
  cases held with
  | none => exact ⟨⟨hlocks, hmine.elim id id, hold.elim id id⟩, rfl⟩
  | some l =>
    refine follows_mono (destroy_keeps hlocks (hhas l rfl)) ?_
    rintro _ _ rfl
    refine ⟨⟨hlocks, ?_, ?_⟩, rfl⟩
    · rcases hmine with h | h <;> simp [Custody.drop, h]
    · rcases hold with h | h <;> simp [Custody.drop, h]

/-! ## The call -/

/-- The section under `g_event_listener_mutex` takes the listener before, and stores the
replacement. -/
theorem install_keeps (replacement : Option ListenerId) :
    Follows custody
      (fun g' previous => g'.locks = [] ∧ g'.mine = none ∧ g'.old = previous)
      (listener.install replacement) (Custody.holding replacement) := by
  refine follows_known ⟨rfl, rfl, rfl⟩ (fun _ => rfl) fun _ => ?_
  refine follows_known ⟨rfl, rfl, rfl, rfl, rfl⟩ (fun _ => rfl) fun previous => ?_
  -- the store of the replacement, and what follows it
  have hstore : Follows custody
      (fun g' result => g'.locks = [] ∧ g'.mine = none ∧ g'.old = result)
      (.act (.storeListener replacement) fun _ => (match replacement with
        | some l => listener.activate l
        | none => .ret ()) >>= fun _ =>
          .act (.unlock .g_event_listener_mutex) fun _ => .ret previous)
      { Custody.holding replacement with
        locks := [.g_event_listener_mutex]
        old := previous
        emptied := true } := by
    have hready : replacement ≠ none → replacement.isSome = true ∧ replacement.isSome = true :=
      fun h => ⟨Option.isSome_iff_ne_none.mpr h, Option.isSome_iff_ne_none.mpr h⟩
    refine follows_known ⟨rfl, rfl, rfl, rfl, rfl, hready⟩ (fun _ => rfl) fun _ => ?_
    cases replacement with
    | none => exact follows_known rfl (fun _ => rfl) fun _ => ⟨rfl, rfl, rfl⟩
    | some l =>
      refine method_keeps (e := .activate l) (Or.inr rfl) ?_ ?_ (fun _ _ => rfl) fun _ => ?_
      · exact Or.inr (Or.inr (Or.inr ⟨rfl, List.mem_cons_self⟩))
      · exact ⟨rfl, List.mem_cons_of_mem _ List.mem_cons_self⟩
      · exact follows_known rfl (fun _ => rfl) fun _ => ⟨rfl, rfl, rfl⟩
  cases previous with
  | none => cases replacement <;> exact hstore
  | some l =>
    refine method_keeps (e := .stop l) (Or.inr rfl) (Or.inr (Or.inr (Or.inl (Or.inr rfl))))
      (Or.inr rfl) (fun _ _ => rfl) fun _ => ?_
    cases replacement <;> exact hstore

/-- What follows, once the error handler is known. -/
theorem replacing_keeps (core : CppCore) (chars : CharUpper) (attempts : Nat)
    (callback_function error_handler : Callback) :
    Follows custody (fun g' returned => ∀ code, returned = some code → g'.Ends) (do
        match ← listener.makeReplacement chars attempts callback_function with
        | none => return none
        | some (.error (replacement, what)) =>
          listener.reset replacement
          let code ← listener.failMsg core error_handler .kMonitorError what
          return some code
        | some (.ok replacement) =>
          let previous ← listener.install replacement
          listener.reset previous
          return some kSuccess) { role := .application } := by
  refine follows_seq (makeReplacement_keeps chars attempts callback_function) ?_
  intro g' result hresult
  rcases result with _ | ⟨replacement, what⟩ | replacement
  · simp
  · obtain ⟨hrole, hlocks, hmine, hold⟩ : g'.role = .application ∧ g'.locks = [] ∧
        g'.mine = replacement ∧ g'.old = none := hresult _ rfl
    refine follows_seq (reset_keeps hlocks (fun l hl => Or.inl (hmine.trans hl)) (Or.inl hmine)
      (Or.inr hold)) ?_
    rintro g'' _ ⟨hends, hsame⟩
    have happ : g''.role = .application := hsame.trans hrole
    refine custody_same ⟨happ, hends.locks⟩ (fun _ => rfl) fun _ => ?_
    exact custody_same ⟨happ, hends.locks⟩ (fun _ => rfl) fun _ _ _ => hends
  · rw [hresult _ rfl]
    refine follows_seq (install_keeps replacement) ?_
    rintro g'' previous ⟨hlocks, hmine, hold⟩
    exact follows_seq (reset_keeps hlocks (fun l hl => Or.inr (hold.trans hl)) (Or.inr hmine)
      (Or.inl hold)) fun _ _ hends _ _ => hends.1

theorem serialSetEventCallback_keeps (core : CppCore) (chars : CharUpper) (attempts : Nat)
    (callback_function error_callback : Callback) :
    Follows custody (fun g' returned => ∀ code, returned = some code → g'.Ends)
      (serialSetEventCallback core chars attempts callback_function error_callback)
      { role := .application } := by
  unfold serialSetEventCallback listener.effectiveErrorCallback
  split
  · exact replacing_keeps core chars attempts callback_function error_callback
  · exact custody_same trivial (fun _ => rfl) fun loaded =>
      replacing_keeps core chars attempts callback_function loaded

/-- Every call keeps to the protocol, and has nothing when it returns. -/
theorem ModuleCall.program_keeps (core : CppCore) (chars : CharUpper) (c : ModuleCall) :
    Follows cpp_bindings_windows.custody (fun g' returned => ∀ code, returned = some code → g'.Ends)
      (c.program core chars) c.custody := by
  cases c with
  | set attempts callback_function error_callback =>
    exact serialSetEventCallback_keeps core chars attempts callback_function error_callback
  | deviceNotification l action data =>
    exact follows_seq (deviceNotification_keeps chars l action data) fun _ _ hends _ _ => hends
  | dispatch l turns =>
    refine custody_same rfl (fun _ => rfl) fun ports => ?_
    refine follows_seq (run_keeps turns ports) fun g' rest hends => ?_
    intro code hreturned
    cases rest with
    | none => exact hends rfl
    | some ports => cases hreturned

end Programs

end cpp_bindings_windows
