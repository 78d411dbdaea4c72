-- The listener of port events: the state that native notifications and the
-- dispatcher share, and the loop of the dispatcher with its map of ports.
-- The sections under a mutex are single actions between a lock and an unlock.
import Mathlib.Data.List.AList
import SerialBindings.Win32

open programs

namespace cpp_bindings_windows

inductive PortEvent
  | kAttached
  | kDetached
  deriving DecidableEq

structure Notification where
  event : PortEvent
  path : WString
  deriving DecidableEq

/-- `std::map<std::wstring, std::string>`: the COM name of each interface that is known. -/
abbrev PortMap := AList fun _ : WString => String

/-- The port that each path is known under. -/
abbrev Known := WString → Option String

namespace PortMap

/-- `emplace` keeps the entry that a key has. -/
def emplace (ports : PortMap) (path : WString) (port : String) : PortMap :=
  match ports.lookup path with
  | some _ => ports
  | none => ports.insert path port

@[simp] theorem emplace_of_none {ports : PortMap} {path : WString} (port : String)
    (h : ports.lookup path = none) : ports.emplace path port = ports.insert path port := by
  unfold emplace
  rw [h]

@[simp] theorem emplace_of_some {ports : PortMap} {path : WString} {old : String} (port : String)
    (h : ports.lookup path = some old) : ports.emplace path port = ports := by
  unfold emplace
  rw [h]

/-- `emplace` adds a name for a key that has none. -/
theorem lookup_emplace (ports : PortMap) (path key : WString) (port : String) :
    (ports.emplace path port).lookup key =
      (ports.lookup key).or (if path = key then some port else none) := by
  cases hold : ports.lookup path with
  | some old =>
    rw [emplace_of_some port hold]
    split
    · rename_i hkey
      rw [← hkey, hold]
      rfl
    · simp
  | none =>
    rw [emplace_of_none port hold]
    by_cases hkey : path = key
    · rw [← hkey, AList.lookup_insert, hold]
      simp
    · rw [AList.lookup_insert_ne (Ne.symm hkey), if_neg hkey]
      simp

/-- The ports that are known, as a function. -/
def known (ports : PortMap) : Known := fun path => ports.lookup path

@[simp] theorem known_insert (ports : PortMap) (path : WString) (port : String) :
    PortMap.known (ports.insert path port) = Function.update ports.known path (some port) := by
  funext key
  unfold known
  by_cases hkey : key = path
  · rw [hkey, Function.update_self, AList.lookup_insert]
  · rw [Function.update_of_ne hkey, AList.lookup_insert_ne hkey]

@[simp] theorem known_erase (ports : PortMap) (path : WString) :
    PortMap.known (ports.erase path) = Function.update ports.known path none := by
  funext key
  unfold known
  by_cases hkey : key = path
  · rw [hkey, Function.update_self, AList.lookup_erase]
  · rw [Function.update_of_ne hkey, AList.lookup_erase_ne hkey]

end PortMap

/-! ## The state of a listener -/

structure EventListenerState where
  pending_ : List Notification := []
  active_ : Bool := false
  stopped_ : Bool := false
  queue_failed_ : Bool := false
  deriving DecidableEq

/-- What one evaluation of the condition of `run` ends with. -/
inductive Turn
  | asleep
  | stopped
  | queueFailed
  | taken (notification : Notification)
  deriving DecidableEq

namespace EventListenerState

def enqueue (state : EventListenerState) (notification : Notification) : EventListenerState :=
  if state.stopped_ then state
  else { state with pending_ := state.pending_ ++ [notification] }

def reportQueueFailure (state : EventListenerState) : EventListenerState :=
  { state with queue_failed_ := true }

def activate (state : EventListenerState) : EventListenerState := { state with active_ := true }

def stop (state : EventListenerState) : EventListenerState := { state with stopped_ := true }

/-- The condition that the dispatcher waits for. -/
def ready (state : EventListenerState) : Bool :=
  state.stopped_ || (state.active_ && (state.queue_failed_ || !state.pending_.isEmpty))

/-- The section of `run` under the mutex: the condition, and what the dispatcher takes when it
holds. -/
def check (state : EventListenerState) : Turn × EventListenerState :=
  if state.ready then
    if state.stopped_ then (.stopped, state)
    else if state.queue_failed_ then (.queueFailed, { state with queue_failed_ := false })
    else match state.pending_ with
      | notification :: pending => (.taken notification, { state with pending_ := pending })
      | [] => (.asleep, state)
  else (.asleep, state)

/-- A notification is taken from the front of the queue, when the listener is active and not
stopped. -/
theorem check_taken {state : EventListenerState} {notification : Notification}
    (h : state.check.1 = .taken notification) :
    state.stopped_ = false ∧ state.active_ = true ∧
      state.pending_ = notification :: state.check.2.pending_ ∧
      state.check.2.stopped_ = false ∧ state.check.2.active_ = true := by
  unfold check ready at h ⊢
  split at h
  · rename_i hready
    rw [if_pos hready]
    split at h
    · cases h
    · rename_i hstopped
      rw [if_neg hstopped]
      split at h
      · cases h
      · rename_i hfailed
        rw [if_neg hfailed]
        split at h
        · cases h
          simp_all
        · cases h
  · cases h

/-- Nothing else changes the queue, and the flags stay. -/
theorem check_other {state : EventListenerState}
    (h : ∀ notification, state.check.1 ≠ .taken notification) :
    state.check.2.pending_ = state.pending_ ∧ state.check.2.stopped_ = state.stopped_ ∧
      state.check.2.active_ = state.active_ := by
  unfold check at h ⊢
  cases hready : state.ready with
  | false => simp
  | true =>
    cases hstopped : state.stopped_ with
    | true => simp [hstopped]
    | false =>
      cases hfailed : state.queue_failed_ with
      | true => simp
      | false =>
        cases hpending : state.pending_ with
        | nil => simp [hstopped, hpending]
        | cons notification pending =>
          simp [hready, hstopped, hfailed, hpending] at h

end EventListenerState

/-! ## The actions -/

/-- An `EventListener`, with its state and its dispatcher, as a number. -/
abbrev ListenerId := Nat

inductive Mutex
  | g_event_listener_mutex
  | mutex_ (listener : ListenerId)
  deriving DecidableEq

/-- What `portName` throws: a `std::system_error` with its code, or another exception. -/
structure PortError where
  code : Option DWORD
  what : String
  deriving DecidableEq

abbrev ULONG := UInt32

/-- What the query of the interface list ends with: `CR_BUFFER_SMALL`, another error as the
exception of `checkConfigResult`, or the buffer that it filled. -/
inductive InterfaceList
  | bufferSmall
  | failed (error : PortError)
  | listed (buffer : WString)

/-- The actions of the listener. An invocation of a function of the application has an action
for its start and one for its return. The path that a callback or a report is about is there
for the reader of a history only. -/
inductive ListenerAction
  | lock (mutex : Mutex)
  | unlock (mutex : Mutex)
  | enqueue (listener : ListenerId) (notification : Notification)
  | reportQueueFailure (listener : ListenerId)
  | activate (listener : ListenerId)
  | stop (listener : ListenerId)
  | check (listener : ListenerId)
  | wake (listener : ListenerId)
  | portName (path : WString)
  | callback (listener : ListenerId) (path : WString) (event : PortEvent) (port : String)
  | callbackReturned (listener : ListenerId)
  | reportError (listener : ListenerId) (about : Option WString) (message : String)
  | reportReturned (listener : ListenerId) (about : Option WString)
  | loadErrorCallback
  | invokeError (callback : Callback) (code : Int) (message : String)
  | errorReturned
  | makeListener
  | registerNotification (listener : ListenerId)
  | interfaceListSize
  | interfaceList (size : ULONG)
  | startThread (listener : ListenerId) (ports : PortMap)
  | capturedPorts (listener : ListenerId)
  | moveListener
  | storeListener (listener : Option ListenerId)
  | hasNotification (listener : ListenerId)
  | unregister (listener : ListenerId)
  | joinable (listener : ListenerId)
  | isCurrentThread (listener : ListenerId)
  | detach (listener : ListenerId)
  | join (listener : ListenerId)

/-- The answers. What can throw answers with the text of the exception, or with none when it
does not throw. -/
@[reducible] def ListenerAnswer : ListenerAction → Type
  | .lock _ | .unlock _ => Unit
  | .enqueue .. => Option String
  | .reportQueueFailure _ | .activate _ | .stop _ => Unit
  | .check _ => Turn
  | .wake _ => Unit
  | .portName _ => Except PortError String
  | .callback .. => Unit
  | .callbackReturned _ => Option String
  | .reportError .. | .reportReturned .. => Unit
  | .loadErrorCallback => Callback
  | .invokeError .. | .errorReturned => Unit
  | .makeListener => Except String ListenerId
  | .registerNotification _ => Option String
  | .interfaceListSize => Except PortError ULONG
  | .interfaceList _ => InterfaceList
  | .startThread .. => Option String
  | .capturedPorts _ => PortMap
  | .moveListener => Option ListenerId
  | .storeListener _ => Unit
  | .hasNotification _ => Bool
  | .unregister _ => Unit
  | .joinable _ | .isCurrentThread _ => Bool
  | .detach _ | .join _ => Unit

/-- An answer for each action where nothing happens and nothing fails. -/
def quietAnswer : (action : ListenerAction) → ListenerAnswer action
  | .lock _ | .unlock _ | .reportQueueFailure _ | .activate _ | .stop _ | .wake _ => ()
  | .callback .. | .reportError .. | .reportReturned .. | .invokeError .. | .errorReturned => ()
  | .storeListener _ | .unregister _ | .detach _ | .join _ => ()
  | .enqueue .. | .callbackReturned _ | .registerNotification _ | .startThread .. => none
  | .check _ => .asleep
  | .portName _ => .ok "COM3"
  | .loadErrorCallback => none
  | .makeListener => .ok 0
  | .interfaceListSize => .ok 1
  | .interfaceList _ => .listed [0]
  | .capturedPorts _ => ∅
  | .moveListener => none
  | .hasNotification _ | .joinable _ => true
  | .isCurrentThread _ => false

/-- A program of the listener. -/
abbrev Listening := Prog ListenerAction ListenerAnswer

namespace listener

abbrev perform (action : ListenerAction) : Listening (ListenerAnswer action) := Prog.perform action

/-- A scope with a `std::lock_guard`. -/
def guarded {α : Type} (mutex : Mutex) (body : Listening α) : Listening α := do
  perform (.lock mutex)
  let result ← body
  perform (.unlock mutex)
  return result

/-! ## The methods of the state -/

/-- `enqueue`, which ends with the text of an exception when the queue cannot grow. -/
def enqueue (l : ListenerId) (notification : Notification) : Listening (Option String) :=
  guarded (.mutex_ l) (perform (.enqueue l notification))

def reportQueueFailure (l : ListenerId) : Listening Unit :=
  guarded (.mutex_ l) (perform (.reportQueueFailure l))

def activate (l : ListenerId) : Listening Unit := guarded (.mutex_ l) (perform (.activate l))

def stop (l : ListenerId) : Listening Unit := guarded (.mutex_ l) (perform (.stop l))

/-! ## The dispatcher -/

/-- The call of `report_error`. -/
def reportError (l : ListenerId) (about : Option WString) (message : String) : Listening Unit := do
  perform (.reportError l about message)
  perform (.reportReturned l about)

/-- The call of `callback`, in the `try` of `run`: an exception is reported. -/
def invokeCallback (l : ListenerId) (path : WString) (event : PortEvent) (port : String) :
    Listening Unit := do
  perform (.callback l path event port)
  match ← perform (.callbackReturned l) with
  | none => return ()
  | some what => reportError l (some path) what

/-- The `try` block of `run` for one notification, from the map before it to the map after. -/
def deliver (l : ListenerId) (ports : PortMap) (notification : Notification) :
    Listening PortMap := do
  match notification.event, ports.lookup notification.path with
  | .kAttached, none =>
    match ← perform (.portName notification.path) with
    | .error error =>
      reportError l (some notification.path) error.what
      return ports
    | .ok port =>
      let ports := ports.emplace notification.path port
      invokeCallback l notification.path .kAttached port
      return ports
  | .kAttached, some _ => return ports
  | .kDetached, some port =>
    let ports := ports.erase notification.path
    invokeCallback l notification.path .kDetached port
    return ports
  | .kDetached, none => return ports

/-- `wakeup_.wait`, followed for so many evaluations of its condition. -/
def wait (l : ListenerId) : Nat → Listening Turn
  | 0 => return .asleep
  | turns + 1 => do
    match ← perform (.check l) with
    | .asleep =>
      perform (.wake l)
      wait l turns
    | turn => return turn

/-- The loop of `run`, followed for so many turns. It ends with its map where it is not followed
further, and with none when the loop returns. -/
def run (l : ListenerId) : Nat → PortMap → Listening (Option PortMap)
  | 0, ports => return some ports
  | turns + 1, ports => do
    perform (.lock (.mutex_ l))
    match ← wait l turns with
    | .asleep => return some ports
    | .stopped =>
      perform (.unlock (.mutex_ l))
      return none
    | .queueFailed =>
      perform (.unlock (.mutex_ l))
      reportError l none "Could not queue a serial device notification"
      run l turns ports
    | .taken notification =>
      perform (.unlock (.mutex_ l))
      let ports ← deliver l ports notification
      run l turns ports

end listener

end cpp_bindings_windows
