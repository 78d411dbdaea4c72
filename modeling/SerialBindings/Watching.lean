-- The devices and one listener: interfaces come and go while a listener is
-- registered, takes its snapshot and dispatches. Each call keeps a copy of the
-- devices, and the protocol says how the copy follows what the call does.
import SerialBindings.Dispatcher
import SerialBindings.SetEventCallback

open programs

namespace cpp_bindings_windows

/-! ## The devices -/

/-- The paths of an interface list, as the walk finds them. -/
def interfacePaths : WString → WString → Option (List WString)
  | _, [] => none
  | path, unit :: buffer =>
    if unit ≠ 0 then interfacePaths (path ++ [unit]) buffer
    else if path = [] then some []
    else (interfacePaths [] buffer).map (path :: ·)

/-- The buffer lists the interfaces that are present, each in any spelling. -/
def Lists (chars : CharUpper) (devices : PortMap) (buffer : WString) : Prop :=
  match interfacePaths [] buffer with
  | none => False
  | some paths => (∀ key ∈ paths.map (interfaceKey chars), key ∈ devices.keys) ∧
      ∀ key ∈ devices.keys, key ∈ paths.map (interfaceKey chars)

/-- What `portName` answers: for a device that is present, its name. -/
def Names : Option String → Except PortError String → Prop
  | some port, .ok port' => port' = port
  | some _, .error _ => False
  | none, _ => True

/-- One listener and the devices. `unsent` has the changes since the registration that Windows
has still to tell. -/
structure Watched where
  devices : PortMap := ∅
  registered : Bool := false
  made : Bool := false
  unsent : List Notification := []
  monitor : Monitor := {}
  ports : Option PortMap := none

/-- What happens to the listener: a device comes under a name or goes, the application makes the
listener, Windows calls `deviceNotification`, any thread calls a method of the state, and the
thread of the listener runs. -/
inductive WatchCall
  | change (path : WString) (port : Option String)
  | register (attempts : Nat) (callback_function : Callback)
  | deviceNotification (action : Nat) (data : CM_NOTIFY_EVENT_DATA)
  | reportQueueFailure
  | activate
  | stop
  | dispatcher (turns : Nat)

def WatchCall.program (chars : CharUpper) (l : ListenerId) :
    WatchCall → Listening (Option PortMap)
  | .change _ _ => return none
  | .register attempts callback_function => do
    let _ ← listener.makeReplacement chars attempts callback_function
    return none
  | .deviceNotification action data => do
    let _ ← listener.deviceNotification chars l action data
    return none
  | .reportQueueFailure => do
    listener.reportQueueFailure l
    return none
  | .activate => do
    listener.activate l
    return none
  | .stop => do
    listener.stop l
    return none
  | .dispatcher turns => listener.dispatcher l turns

namespace Watched

/-- The notifications that are still to be taken. -/
def queue (w : Watched) : List Notification := w.monitor.state.pending_ ++ w.unsent

/-- A device comes or goes. After the registration, Windows will tell. -/
def change (chars : CharUpper) (w : Watched) (path : WString) (port : Option String) : Watched :=
  let key := interfaceKey chars path
  { w with
    devices := match port with
      | some port => w.devices.insert key port
      | none => w.devices.erase key
    unsent := if w.registered then
        w.unsent ++ [⟨if port.isSome then .kAttached else .kDetached, key⟩]
      else w.unsent }

def enter (chars : CharUpper) (w : Watched) : WatchCall → Option Watched
  | .change path port =>
    if (w.devices.lookup (interfaceKey chars path)).isSome = port.isSome then none
    else some (w.change chars path port)
  | .register _ _ => if w.made then none else some { w with made := true }
  | .dispatcher _ =>
    if w.ports.isSome ∧ w.monitor.started = false then
      some { w with monitor := { w.monitor with started := true } }
    else none
  | _ => some w

def perform (thread : Nat) (w : Watched) :
    (action : ListenerAction) → ListenerAnswer action → Option Watched
  | .registerNotification _, thrown =>
    some (if thrown.isNone then { w with registered := true } else w)
  | .startThread _ ports, thrown =>
    some (if thrown.isNone then { w with ports := some ports } else w)
  | .capturedPorts _, ports =>
    if w.ports.map (·.entries) = some ports.entries then some w else none
  | .enqueue l notification, thrown =>
    (w.monitor.perform thread (.enqueue l notification) thrown).map fun monitor =>
      { w with monitor, unsent := w.unsent.tail }
  | action, answer =>
    (w.monitor.perform thread action answer).map fun monitor => { w with monitor }

end Watched

def watching (chars : CharUpper) (l : ListenerId) :
    Machine Nat ListenerAction ListenerAnswer WatchCall (Option PortMap) Watched where
  body := WatchCall.program chars l
  enter _ w c := w.enter chars c
  perform := Watched.perform
  leave _ w _ _ := some w

abbrev WatchLabel := Label Nat ListenerAction ListenerAnswer WatchCall (Option PortMap)

/-- The steps that are looked at: every change is queued, in order, nothing is stopped, the
interface list has the interfaces that are present, and an interface that is present can be
named. -/
def undisturbed (chars : CharUpper) (_ : List WatchLabel) (w : Watched) : WatchLabel → Prop
  | .did _ (.enqueue _ notification) thrown =>
    thrown = none ∧ w.unsent.head? = some notification
  | .did _ (.stop _) _ => False
  | .did _ (.portName path) resolved =>
    Names (w.devices.lookup (interfaceKey chars path)) resolved
  | .did _ (.interfaceList _) (.listed buffer) => Lists chars w.devices buffer
  | _ => True

/-! ## The protocol of a snapshot -/

/-- How far a thread is with the listener. -/
inductive WatchStage
  | outside
  | registering
  | registered
  | walking
  | starting
  | dispatching
  deriving DecidableEq

/-- The copy of the devices in a thread: the map, the paths of the list whose names are still to
be read, and the arrival whose name is. -/
structure Watch where
  stage : WatchStage := .outside
  known : PortMap := ∅
  paths : List WString := []
  awaiting : Option Notification := none

namespace Watch

/-- The copy after a name was read, when one was. -/
def reads (g : Watch) (key : WString) : Except PortError String → PortMap
  | .ok port => g.known.emplace key port
  | .error _ => g.known

/-- The copy after the dispatcher took a notification. -/
def takes (g : Watch) (notification : Notification) : Watch :=
  match notification.event, g.known.lookup notification.path with
  | .kAttached, none => { g with awaiting := some notification }
  | .kAttached, some _ => g
  | .kDetached, some _ => { g with known := g.known.erase notification.path }
  | .kDetached, none => g

def allows (g : Watch) : ListenerAction → Prop
  | .registerNotification _ => g.stage = .registering
  | .interfaceList _ => g.stage = .registered
  | .portName path => (g.stage = .walking ∧ ∃ rest, g.paths = path :: rest) ∨
      (g.stage = .dispatching ∧ g.awaiting = some ⟨.kAttached, path⟩)
  | .startThread _ ports => g.stage = .walking ∧ g.paths = [] ∧ ports = g.known
  | .capturedPorts _ => g.stage = .starting
  | .check _ => g.stage = .dispatching ∧ g.awaiting = none
  | _ => True

def next (chars : CharUpper) (g : Watch) : (e : ListenerAction) → ListenerAnswer e → Option Watch
  | .registerNotification _, thrown =>
    some { g with stage := if thrown.isNone then .registered else .outside }
  | .interfaceList _, .listed buffer =>
    (interfacePaths [] buffer).map fun paths => { stage := .walking, paths }
  | .portName path, resolved =>
    if g.stage = .walking then
      some { g with known := g.reads (interfaceKey chars path) resolved, paths := g.paths.tail }
    else some { g with known := g.reads path resolved, awaiting := none }
  | .startThread .., _ => some { g with stage := .outside }
  | .capturedPorts _, ports => some { stage := .dispatching, known := ports }
  | .check _, .taken notification => some (g.takes notification)
  | _, _ => some g

end Watch

def watch (chars : CharUpper) : Protocol ListenerAction ListenerAnswer Watch where
  allows := Watch.allows
  next := Watch.next chars

/-- The actions that have nothing to do with the copy. -/
def ListenerAction.Uncopied : ListenerAction → Prop
  | .registerNotification _ | .interfaceList _ | .portName _ | .startThread .. => False
  | .capturedPorts _ | .check _ => False
  | _ => True

variable {chars : CharUpper} {l : ListenerId} {g : Watch}

theorem watch_uncopied {e : ListenerAction} (h : e.Uncopied) (g : Watch) (r : ListenerAnswer e) :
    (watch chars).allows g e ∧ (watch chars).next g e r = some g := by
  cases e with
  | registerNotification | interfaceList | portName | startThread | capturedPorts | check =>
    exact h.elim
  | _ => exact ⟨trivial, rfl⟩

theorem watch_skip {α : Type} {Q : Watch → α → Prop} {e : ListenerAction}
    {k : ListenerAnswer e → Listening α} (he : e.Uncopied)
    (h : ∀ r, Follows (watch chars) Q (k r) g) : Follows (watch chars) Q (.act e k) g := by
  refine ⟨?_, fun r g' hn => ?_⟩
  · cases e with
    | registerNotification | interfaceList | portName | startThread | capturedPorts | check =>
      exact he.elim
    | _ => trivial
  · rw [(watch_uncopied he g r).2] at hn
    cases hn
    exact h r

/-! ## The programs -/

theorem interfaces_watched (attempts : Nat) (h : g.stage = .registered) :
    Follows (watch chars) (fun g' result => ∀ buffer, result = some (.ok buffer) →
        g'.stage = .walking ∧ g'.known = ∅ ∧ interfacePaths [] buffer = some g'.paths)
      (listener.interfaces attempts) g := by
  induction attempts with
  | zero => exact nofun
  | succ attempts ih =>
    refine watch_skip trivial fun size => ?_
    cases size with
    | error error => exact nofun
    | ok length =>
      refine ⟨h, fun answer g' hn => ?_⟩
      cases answer with
      | bufferSmall =>
        cases hn
        exact ih
      | failed error => exact nofun
      | listed buffer =>
        obtain ⟨paths, hpaths, rfl⟩ := Option.map_eq_some_iff.mp hn
        intro buffer' heq
        cases heq
        exact ⟨rfl, rfl, hpaths⟩

/-- The walk reads the name of each path in turn. -/
theorem snapshot_watched (path buffer : WString) (ports : PortMap) (hstage : g.stage = .walking)
    (hknown : g.known = ports) (hpaths : interfacePaths path buffer = some g.paths) :
    Follows (watch chars) (fun g' result => ∀ ports', result = some (.ok ports') →
        g'.stage = .walking ∧ g'.known = ports' ∧ g'.paths = [])
      (listener.snapshot chars path buffer ports) g := by
  induction buffer generalizing path ports g with
  | nil => cases hpaths
  | cons unit buffer ih =>
    unfold interfacePaths at hpaths
    unfold listener.snapshot
    split
    · rename_i hunit
      rw [if_pos hunit] at hpaths
      exact ih _ _ hstage hknown hpaths
    · rename_i hunit
      rw [if_neg hunit] at hpaths
      split
      · rename_i hpath
        rw [if_pos hpath] at hpaths
        intro ports' heq
        cases heq
        exact ⟨hstage, hknown, (Option.some.inj hpaths).symm⟩
      · rename_i hpath
        rw [if_neg hpath] at hpaths
        obtain ⟨rest, hrest, heq⟩ := Option.map_eq_some_iff.mp hpaths
        refine ⟨Or.inl ⟨hstage, rest, heq.symm⟩, fun resolved g' hn => ?_⟩
        simp only [watch, Watch.next, hstage, if_true, Option.some.injEq] at hn
        subst hn
        have htail : interfacePaths [] buffer = some g.paths.tail := by
          rw [hrest, ← heq]
          rfl
        cases resolved with
        | ok port => exact ih _ _ rfl (by rw [← hknown]; rfl) htail
        | error error =>
          dsimp only [Prog.bind]
          split
          · exact nofun
          · split
            · exact ih _ _ rfl hknown htail
            · exact nofun

theorem existingPorts_watched (attempts : Nat) (h : g.stage = .registered) :
    Follows (watch chars) (fun g' result => ∀ ports, result = some (.ok ports) →
        g'.stage = .walking ∧ g'.known = ports ∧ g'.paths = [])
      (listener.existingPorts chars attempts) g := by
  refine follows_seq (interfaces_watched attempts h) fun g' result hlisted => ?_
  match result, hlisted with
  | none, _ => exact nofun
  | some (.error error), _ => exact nofun
  | some (.ok buffer), hlisted =>
    obtain ⟨hstage, hknown, hpaths⟩ := hlisted buffer rfl
    exact snapshot_watched [] buffer ∅ hstage hknown hpaths

theorem makeReplacement_watched (attempts : Nat) (callback_function : Callback)
    (h : g.stage = .registering) :
    Follows (watch chars) (fun _ _ => True)
      (listener.makeReplacement chars attempts callback_function) g := by
  unfold listener.makeReplacement
  split
  · trivial
  · refine watch_skip trivial fun made => ?_
    cases made with
    | error what => trivial
    | ok l =>
      refine ⟨h, fun thrown g' hn => ?_⟩
      cases thrown with
      | some what => trivial
      | none =>
        cases hn
        dsimp only [Prog.bind]
        refine follows_seq (existingPorts_watched attempts rfl) fun g' result hsnapshot => ?_
        match result, hsnapshot with
        | none, _ => trivial
        | some (.error error), _ => trivial
        | some (.ok ports), hsnapshot =>
          obtain ⟨hstage, hknown, hpaths⟩ := hsnapshot ports rfl
          refine ⟨⟨hstage, hpaths, hknown.symm⟩, fun thrown g'' _ => ?_⟩
          cases thrown <;> trivial

/-- The dispatcher goes on after an invocation with the map as it is. -/
theorem invokeCallback_watched {α : Type} {Q : Watch → α → Prop} {path : WString}
    {event : PortEvent} {port : String} {f : Unit → Listening α}
    (h : Follows (watch chars) Q (f ()) g) :
    Follows (watch chars) Q (listener.invokeCallback l path event port >>= f) g := by
  refine watch_skip trivial fun _ => watch_skip trivial fun thrown => ?_
  cases thrown with
  | none => exact h
  | some what => exact watch_skip trivial fun _ => watch_skip trivial fun _ => h

theorem deliver_watched (notification : Notification) (hstage : g.stage = .dispatching)
    (hawaiting : g.awaiting = none) :
    Follows (watch chars) (fun g' ports => g'.stage = .dispatching ∧ g'.known = ports ∧
        g'.awaiting = none) (listener.deliver l g.known notification) (g.takes notification) := by
  unfold listener.deliver Watch.takes
  cases hevent : notification.event with
  | kAttached =>
    cases hfound : g.known.lookup notification.path with
    | some port => exact ⟨hstage, rfl, hawaiting⟩
    | none =>
      have hnotification : notification = ⟨.kAttached, notification.path⟩ := by rw [← hevent]
      refine ⟨Or.inr ⟨hstage, congrArg some hnotification⟩, fun resolved g' hn => ?_⟩
      simp only [watch, Watch.next, hstage, reduceCtorEq, if_false, Option.some.injEq] at hn
      subst hn
      cases resolved with
      | error error =>
        exact watch_skip trivial fun _ => watch_skip trivial fun _ => ⟨rfl, rfl, rfl⟩
      | ok port => exact invokeCallback_watched ⟨rfl, rfl, rfl⟩
  | kDetached =>
    cases hfound : g.known.lookup notification.path with
    | none => exact ⟨hstage, rfl, hawaiting⟩
    | some port => exact invokeCallback_watched ⟨hstage, rfl, hawaiting⟩

theorem wait_watched (turns : Nat) (hstage : g.stage = .dispatching)
    (hawaiting : g.awaiting = none) :
    Follows (watch chars) (fun g' turn => g' = match turn with
        | .taken notification => g.takes notification
        | _ => g) (listener.wait l turns) g := by
  induction turns with
  | zero => exact rfl
  | succ turns ih =>
    refine ⟨⟨hstage, hawaiting⟩, fun turn g' hn => ?_⟩
    cases turn with
    | asleep =>
      cases hn
      exact watch_skip trivial fun _ => ih
    | _ => exact (Option.some.inj hn).symm

/-- Between two notifications, the copy is the map of the dispatcher. -/
theorem run_watched (turns : Nat) (hstage : g.stage = .dispatching)
    (hawaiting : g.awaiting = none) :
    Follows (watch chars) (fun g' rest => ∀ ports, rest = some ports →
        g'.stage = .dispatching ∧ g'.known = ports ∧ g'.awaiting = none)
      (listener.run l turns g.known) g := by
  induction turns generalizing g with
  | zero =>
    intro ports heq
    cases heq
    exact ⟨hstage, rfl, hawaiting⟩
  | succ turns ih =>
    refine watch_skip trivial fun _ => ?_
    dsimp only [Prog.bind]
    refine follows_seq (wait_watched turns hstage hawaiting) fun g' turn hturn => ?_
    cases turn with
    | asleep =>
      intro ports heq
      cases heq
      rw [hturn]
      exact ⟨hstage, rfl, hawaiting⟩
    | stopped => exact watch_skip trivial fun _ => nofun
    | queueFailed =>
      rw [hturn]
      exact watch_skip trivial fun _ => watch_skip trivial fun _ => watch_skip trivial fun _ =>
        ih hstage hawaiting
    | taken notification =>
      rw [hturn]
      refine watch_skip trivial fun _ => ?_
      dsimp only [Prog.bind]
      refine follows_seq (deliver_watched notification hstage hawaiting) fun g'' ports hover => ?_
      obtain ⟨hstage', rfl, hawaiting'⟩ := hover
      exact ih hstage' hawaiting'

/-- Where each call starts. -/
def WatchCall.start : WatchCall → Watch
  | .register _ _ => { stage := .registering }
  | .dispatcher _ => { stage := .starting }
  | _ => {}

/-- What a call ends with: the dispatcher, where it is not followed further, with its map. -/
def WatchCall.ends (c : WatchCall) (g : Watch) (rest : Option PortMap) : Prop :=
  match c with
  | .dispatcher _ => ∀ ports, rest = some ports →
      g.stage = .dispatching ∧ g.known = ports ∧ g.awaiting = none
  | _ => True

theorem method_watched {α : Type} {e : ListenerAction} {Q : Watch → α → Prop} (he : e.Uncopied)
    {f : ListenerAnswer e → Listening α} (hf : ∀ r, Follows (watch chars) Q (f r) g) :
    Follows (watch chars) Q (listener.guarded (.mutex_ l) (listener.perform e) >>= f) g :=
  watch_skip trivial fun _ => watch_skip he fun r => watch_skip trivial fun _ => hf r

theorem deviceNotification_watched (action : Nat) (data : CM_NOTIFY_EVENT_DATA) :
    Follows (watch chars) (fun _ _ => True)
      (listener.deviceNotification chars l action data) g := by
  unfold listener.deviceNotification
  split
  · trivial
  · refine method_watched (e := .enqueue l _) trivial fun thrown => ?_
    cases thrown with
    | none => trivial
    | some what => exact method_watched (e := .reportQueueFailure l) trivial fun _ => trivial

theorem WatchCall.program_watched (chars : CharUpper) (l : ListenerId) (c : WatchCall) :
    Follows (watch chars) c.ends (c.program chars l) c.start := by
  cases c with
  | change path port => trivial
  | register attempts callback_function =>
    exact follows_seq (makeReplacement_watched attempts callback_function rfl)
      fun _ _ _ => trivial
  | deviceNotification action data =>
    exact follows_seq (deviceNotification_watched action data) fun _ _ _ => trivial
  | reportQueueFailure =>
    exact method_watched (e := .reportQueueFailure l) trivial fun _ => trivial
  | activate => exact method_watched (e := .activate l) trivial fun _ => trivial
  | stop => exact method_watched (e := .stop l) trivial fun _ => trivial
  | dispatcher turns =>
    refine ⟨rfl, fun ports g' hn => ?_⟩
    cases hn
    exact run_watched (g := { stage := .dispatching, known := ports }) turns rfl rfl

end cpp_bindings_windows
