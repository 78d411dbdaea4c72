-- The whole module of the event callback: any threads that call
-- `serialSetEventCallback`, also from inside the callbacks that dispatchers
-- invoke, with the dispatchers of all listeners and the native notifications.
import SerialBindings.SetEventCallback
import SerialBindings.Threads

open programs

namespace cpp_bindings_windows

/-! ## The machine -/

/-- A thread of the operating system. -/
inductive OsThread
  | app (n : Nat)
  | dispatcher (l : ListenerId)
  deriving DecidableEq

/-- A thread at one depth of its callbacks: a call that is made inside a callback of the thread
`⟨os, d⟩` is a call of the thread `⟨os, d + 1⟩`. -/
structure Thread where
  os : OsThread
  depth : Nat := 0
  deriving DecidableEq

/-- The thread inside a callback of this one. -/
def Thread.inner (t : Thread) : Thread := ⟨t.os, t.depth + 1⟩

/-- An `EventListener` with its state, and what became of its thread. -/
structure Listener where
  state : EventListenerState := {}
  registered : Bool := false
  ports : Option PortMap := none
  entered : Bool := false
  finished : Bool := false
  joinable : Bool := false

/-- The state of the module. A thread that is `inUser` is inside a callback of the application,
and one that is `busy` inside a call. -/
structure EventModule where
  listeners : ListenerId → Listener := fun _ => {}
  made : Nat := 0
  g_event_listener : Option ListenerId := none
  holder : Mutex → Option Thread := fun _ => none
  inUser : Thread → Bool := fun _ => false
  busy : Thread → Bool := fun _ => false

/-- What the threads do: the application calls `serialSetEventCallback`, Windows calls
`deviceNotification`, and the thread of a listener dispatches. -/
inductive ModuleCall
  | set (attempts : Nat) (callback_function error_callback : Callback)
  | deviceNotification (l : ListenerId) (action : Nat) (data : CM_NOTIFY_EVENT_DATA)
  | dispatch (l : ListenerId) (turns : Nat)

/-- A call ends with what it returns, and with none where it is not followed further. The
dispatcher returns nothing, for which 0 stands. -/
def ModuleCall.program (core : CppCore) (chars : CharUpper) : ModuleCall → Listening (Option Int)
  | .set attempts callback_function error_callback =>
    serialSetEventCallback core chars attempts callback_function error_callback
  | .deviceNotification l action data => do
    let code ← listener.deviceNotification chars l action data
    return some code.toNat
  | .dispatch l turns => do
    let ports ← listener.dispatcher l turns
    return if ports.isNone then some 0 else none

namespace EventModule

def modify (w : EventModule) (l : ListenerId) (f : Listener → Listener) : EventModule :=
  { w with listeners := Function.update w.listeners l (f (w.listeners l)) }

def withState (w : EventModule) (l : ListenerId) (f : EventListenerState → EventListenerState) :
    EventModule :=
  w.modify l fun listener => { listener with state := f listener.state }

def withHolder (w : EventModule) (mutex : Mutex) (holder : Option Thread) : EventModule :=
  { w with holder := Function.update w.holder mutex holder }

def withUser (w : EventModule) (t : Thread) (inUser : Bool) : EventModule :=
  { w with inUser := Function.update w.inUser t inUser }

/-- A callback of the application returns when no call is made inside it. -/
def fromUser (w : EventModule) (t : Thread) : Option EventModule :=
  if w.busy t.inner then none else some (w.withUser t false)

def perform (t : Thread) (w : EventModule) :
    (action : ListenerAction) → ListenerAnswer action → Option EventModule
  | .lock mutex, _ => if w.holder mutex = none then some (w.withHolder mutex (some t)) else none
  | .unlock mutex, _ => if w.holder mutex = some t then some (w.withHolder mutex none) else none
  | .enqueue l notification, thrown =>
    some (if thrown.isSome then w else w.withState l (·.enqueue notification))
  | .reportQueueFailure l, _ => some (w.withState l (·.reportQueueFailure))
  | .activate l, _ => some (w.withState l (·.activate))
  | .stop l, _ => some (w.withState l (·.stop))
  | .check l, turn =>
    if (w.listeners l).state.check.1 = turn then
      some (if turn = .asleep then w.withHolder (.mutex_ l) none
        else w.withState l (·.check.2))
    else none
  | .wake l, _ =>
    -- a wait may end without a notification, so none is asked for here; that one comes when
    -- there is work is `the_dispatcher_has_no_lost_wakeup`
    if w.holder (.mutex_ l) = none then some (w.withHolder (.mutex_ l) (some t)) else none
  | .callback .., _ | .reportError .., _ | .invokeError .., _ => some (w.withUser t true)
  | .callbackReturned _, _ | .reportReturned .., _ | .errorReturned, _ => w.fromUser t
  | .makeListener, .ok l => if l = w.made then some { w with made := w.made + 1 } else none
  | .registerNotification l, thrown =>
    some (if thrown.isSome then w else w.modify l ({ · with registered := true }))
  | .startThread l ports, thrown =>
    some (if thrown.isSome then w
      else w.modify l ({ · with ports := some ports, joinable := true }))
  | .capturedPorts l, ports =>
    if (w.listeners l).ports.map (·.entries) = some ports.entries then some w else none
  | .moveListener, previous =>
    if w.g_event_listener = previous then some { w with g_event_listener := none } else none
  | .storeListener replacement, _ => some { w with g_event_listener := replacement }
  | .hasNotification l, answer => if (w.listeners l).registered = answer then some w else none
  | .unregister l, _ => some (w.modify l ({ · with registered := false }))
  | .joinable l, answer => if (w.listeners l).joinable = answer then some w else none
  | .isCurrentThread l, answer =>
    if decide (t.os = .dispatcher l) = answer then some w else none
  | .detach l, _ => some (w.modify l ({ · with joinable := false }))
  | .join l, _ =>
    if (w.listeners l).finished then some (w.modify l ({ · with joinable := false })) else none
  | _, _ => some w

/-- The application may call from its own threads and from inside its callbacks. -/
def mayCall (w : EventModule) (t : Thread) : Bool :=
  match t with
  | ⟨.app _, 0⟩ => true
  | ⟨.dispatcher _, 0⟩ => false
  | ⟨os, depth + 1⟩ => w.inUser ⟨os, depth⟩

def mayEnter (w : EventModule) (t : Thread) : ModuleCall → Bool
  | .set .. => w.mayCall t
  | .deviceNotification l _ _ =>
    (w.listeners l).registered && (t.depth == 0) && !(t.os matches .dispatcher _)
  | .dispatch l _ =>
    t = ⟨.dispatcher l, 0⟩ && (w.listeners l).ports.isSome && !(w.listeners l).entered

def withBusy (w : EventModule) (t : Thread) (busy : Bool) : EventModule :=
  { w with busy := Function.update w.busy t busy }

def enter (t : Thread) (w : EventModule) (c : ModuleCall) : Option EventModule :=
  if w.mayEnter t c then
    let w := w.withBusy t true
    some (match c with
      | .dispatch l _ => w.modify l ({ · with entered := true })
      | _ => w)
  else none

def leave (t : Thread) (w : EventModule) (c : ModuleCall) (returned : Option Int) :
    Option EventModule :=
  if returned.isSome then
    let w := w.withBusy t false
    some (match c with
      | .dispatch l _ => w.modify l ({ · with finished := true })
      | _ => w)
  else none

end EventModule

def eventModule (core : CppCore) (chars : CharUpper) :
    Machine Thread ListenerAction ListenerAnswer ModuleCall (Option Int) EventModule where
  body := ModuleCall.program core chars
  enter := EventModule.enter
  perform := EventModule.perform
  leave := EventModule.leave

abbrev ModuleLabel := Label Thread ListenerAction ListenerAnswer ModuleCall (Option Int)

abbrev ModuleSys := Sys Thread ListenerAction ListenerAnswer ModuleCall (Option Int) EventModule

end cpp_bindings_windows
