-- The module of the event callback: what native notifications queue, the
-- snapshot of the ports that exist, a listener from its registration to its
-- destruction, and the call that replaces the listener of the process.
import SerialBindings.PortEvents

open programs

namespace cpp_bindings_windows

/-! ## The words of Windows -/

def CM_NOTIFY_FILTER_TYPE_DEVICEINTERFACE : Nat := 0
def CM_NOTIFY_ACTION_DEVICEINTERFACEARRIVAL : Nat := 0
def CM_NOTIFY_ACTION_DEVICEINTERFACEREMOVAL : Nat := 1

def ERROR_FILE_NOT_FOUND : DWORD := 2
def ERROR_PATH_NOT_FOUND : DWORD := 3
def ERROR_NOT_ENOUGH_MEMORY : DWORD := 8
def ERROR_DEV_NOT_EXIST : DWORD := 55
def ERROR_KEY_DELETED : DWORD := 1018
def ERROR_NO_SUCH_DEVINST : DWORD := 0xE000020B
def ERROR_NO_SUCH_DEVICE_INTERFACE : DWORD := 0xE0000225

/-- The fields of `CM_NOTIFY_EVENT_DATA` that the bindings read. -/
structure CM_NOTIFY_EVENT_DATA where
  FilterType : Nat
  SymbolicLink : WString

/-- `CharUpperBuffW`, which replaces each unit of a buffer. What is upper case stays as it is. -/
structure CharUpper where
  upper : UInt16 → UInt16
  upper_upper : ∀ unit, upper (upper unit) = upper unit

/-- A table of upper case letters in which every unit stands for itself. -/
def plainUnits : CharUpper where
  upper unit := unit
  upper_upper _ := rfl

/-- One key for all spellings of a path. -/
def interfaceKey (chars : CharUpper) (path : WString) : WString := path.map chars.upper

@[simp] theorem interfaceKey_idem (chars : CharUpper) (path : WString) :
    interfaceKey chars (interfaceKey chars path) = interfaceKey chars path := by
  unfold interfaceKey
  rw [List.map_map]
  exact List.map_congr_left fun unit _ => chars.upper_upper unit

/-- The errors of an interface that disappears while the snapshot is built. -/
def hasVanished (code : DWORD) : Bool :=
  code == ERROR_NO_SUCH_DEVICE_INTERFACE || code == ERROR_NO_SUCH_DEVINST ||
    code == ERROR_DEV_NOT_EXIST || code == ERROR_FILE_NOT_FOUND || code == ERROR_PATH_NOT_FOUND ||
    code == ERROR_KEY_DELETED

/-- The actions of the snapshot of the ports that exist. -/
def ListenerAction.Lists : ListenerAction → Prop
  | .interfaceListSize => True
  | .interfaceList _ => True
  | .portName _ => True
  | _ => False

namespace listener

/-! ## Notifications -/

/-- The callback of Windows. A copy of the path that fails is like a queue that cannot grow. -/
def deviceNotification (chars : CharUpper) (l : ListenerId) (action : Nat)
    (data : CM_NOTIFY_EVENT_DATA) : Listening DWORD := do
  if data.FilterType ≠ CM_NOTIFY_FILTER_TYPE_DEVICEINTERFACE ∨
      (action ≠ CM_NOTIFY_ACTION_DEVICEINTERFACEARRIVAL ∧
        action ≠ CM_NOTIFY_ACTION_DEVICEINTERFACEREMOVAL) then
    return ERROR_SUCCESS
  else
    let event :=
      if action = CM_NOTIFY_ACTION_DEVICEINTERFACEARRIVAL then .kAttached else .kDetached
    match ← enqueue l ⟨event, interfaceKey chars data.SymbolicLink⟩ with
    | none => return ERROR_SUCCESS
    | some _ =>
      reportQueueFailure l
      return ERROR_NOT_ENOUGH_MEMORY

/-! ## The snapshot -/

/-- The queries of the interface list, followed for so many attempts. It ends with none where it
is not followed further. -/
def interfaces : Nat → Listening (Option (Except PortError WString))
  | 0 => return none
  | attempts + 1 => do
    match ← perform .interfaceListSize with
    | .error error => return some (.error error)
    | .ok length =>
      match ← perform (.interfaceList (max length 1)) with
      | .bufferSmall => interfaces attempts
      | .failed error => return some (.error error)
      | .listed buffer => return some (.ok buffer)

/-- The walk over the interface list: `path` is what `wcslen` has passed of the current path. It
ends with none when it leaves the buffer. -/
def snapshot (chars : CharUpper) :
    WString → WString → PortMap → Listening (Option (Except PortError PortMap))
  | _, [], _ => return none
  | path, unit :: buffer, ports =>
    if unit ≠ 0 then snapshot chars (path ++ [unit]) buffer ports
    else if path = [] then return some (.ok ports)
    else do
      match ← perform (.portName path) with
      | .ok port => snapshot chars [] buffer (ports.emplace (interfaceKey chars path) port)
      | .error error =>
        match error.code with
        | none => return some (.error error)
        | some code =>
          if hasVanished code then snapshot chars [] buffer ports
          else return some (.error error)

def existingPorts (chars : CharUpper) (attempts : Nat) :
    Listening (Option (Except PortError PortMap)) := do
  match ← interfaces attempts with
  | none => return none
  | some (.error error) => return some (.error error)
  | some (.ok buffer) => snapshot chars [] buffer ∅

theorem interfaces_within (attempts : Nat) :
    Within (fun e => e = .interfaceListSize ∨ ∃ size, e = .interfaceList size) (fun _ => True)
      (interfaces attempts) := by
  induction attempts with
  | zero => trivial
  | succ attempts ih =>
    refine ⟨Or.inl rfl, fun size => ?_⟩
    cases size with
    | error error => trivial
    | ok length =>
      refine ⟨Or.inr ⟨_, rfl⟩, fun list => ?_⟩
      cases list with
      | bufferSmall => exact ih
      | failed error => trivial
      | listed buffer => trivial

theorem snapshot_within (chars : CharUpper) (path buffer : WString) (ports : PortMap) :
    Within (fun e => ∃ path, e = .portName path) (fun _ => True)
      (snapshot chars path buffer ports) := by
  induction buffer generalizing path ports with
  | nil => trivial
  | cons unit buffer ih =>
    rw [snapshot]
    refine within_ite (ih _ _) (within_ite trivial ⟨⟨path, rfl⟩, fun answer => ?_⟩)
    rcases answer with ⟨code, what⟩ | port
    · cases code with
      | none => trivial
      | some code => exact within_ite (ih _ _) trivial
    · exact ih _ _

theorem existingPorts_within (chars : CharUpper) (attempts : Nat) :
    Within ListenerAction.Lists (fun _ => True) (existingPorts chars attempts) := by
  have hlists : Within ListenerAction.Lists (fun _ => True) (interfaces attempts) := by
    refine within_mono (interfaces_within attempts) ?_ fun _ h => h
    rintro _ (rfl | ⟨size, rfl⟩) <;> trivial
  refine within_seq hlists fun list _ => ?_
  rcases list with _ | error | buffer
  · trivial
  · trivial
  · refine within_mono (snapshot_within chars [] buffer ∅) ?_ fun _ h => h
    rintro _ ⟨path, rfl⟩
    trivial

/-! ## A listener -/

/-- The `try` block of `serialSetEventCallback`. It ends with the replacement, or with the text of
the exception and the listener that was made before it. -/
def makeReplacement (chars : CharUpper) (attempts : Nat) (callback_function : Callback) :
    Listening (Option (Except (Option ListenerId × String) (Option ListenerId))) := do
  if callback_function = none then return some (.ok none)
  else
    match ← perform .makeListener with
    | .error what => return some (.error (none, what))
    | .ok l =>
      match ← perform (.registerNotification l) with
      | some what => return some (.error (some l, what))
      | none =>
        match ← existingPorts chars attempts with
        | none => return none
        | some (.error error) => return some (.error (some l, error.what))
        | some (.ok ports) =>
          match ← perform (.startThread l ports) with
          | some what => return some (.error (some l, what))
          | none => return some (.ok (some l))

/-- The lambda that the thread of a listener runs. -/
def dispatcher (l : ListenerId) (turns : Nat) : Listening (Option PortMap) := do
  let ports ← perform (.capturedPorts l)
  run l turns ports

/-- `~EventListener`. -/
def destroy (l : ListenerId) : Listening Unit := do
  stop l
  if ← perform (.hasNotification l) then
    perform (.unregister l)
  if ← perform (.joinable l) then
    if ← perform (.isCurrentThread l) then perform (.detach l)
    else perform (.join l)

/-- A `std::unique_ptr<EventListener>` that goes. -/
def reset : Option ListenerId → Listening Unit
  | none => return ()
  | some l => destroy l

/-! ## The call -/

def effectiveErrorCallback (error_callback : Callback) : Listening Callback :=
  if error_callback ≠ none then return error_callback
  else perform .loadErrorCallback

/-- `cpp_core::failMsg`. The callback of the application is given back before it returns. -/
def failMsg (core : CppCore) (callback : Callback) (code : StatusCode) (message : String) :
    Listening Int := do
  perform (.invokeError callback (core.value code) message)
  perform .errorReturned
  return core.value code

/-- The section under `g_event_listener_mutex`. It ends with the listener before. -/
def install (replacement : Option ListenerId) : Listening (Option ListenerId) :=
  guarded .g_event_listener_mutex do
    let previous ← perform .moveListener
    match previous with
    | some l => stop l
    | none => pure ()
    perform (.storeListener replacement)
    match replacement with
    | some l => activate l
    | none => pure ()
    return previous

end listener

/-- It ends with none where the queries of the interface list are not followed further. -/
def serialSetEventCallback (core : CppCore) (chars : CharUpper) (attempts : Nat)
    (callback_function error_callback : Callback) : Listening (Option Int) := do
  let error_handler ← listener.effectiveErrorCallback error_callback
  match ← listener.makeReplacement chars attempts callback_function with
  | none => return none
  | some (.error (replacement, what)) =>
    listener.reset replacement
    let code ← listener.failMsg core error_handler .kMonitorError what
    return some code
  | some (.ok replacement) =>
    let previous ← listener.install replacement
    listener.reset previous
    return some kSuccess

end cpp_bindings_windows
