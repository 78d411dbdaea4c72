-- The methods of `EventListenerState` once more, with each access to its fields and each
-- notification of `wakeup_` as a step of its own: the dispatcher never misses one that it needs.
import SerialBindings.Monitors
import SerialBindings.PortEvents

open programs monitors

namespace cpp_bindings_windows

/-! ## The fields -/

/-- The accesses to the fields of an `EventListenerState`. -/
inductive StateAccess
  | isStopped
  | pushBack (notification : Notification)
  | setQueueFailed (queue_failed : Bool)
  | setActive
  | setStopped
  | isQueueFailed
  | popFront

/-- The answers. A queue that cannot grow answers with the text of the exception. -/
@[reducible] def StateAnswer : StateAccess → Type
  | .isStopped | .isQueueFailed => Bool
  | .pushBack _ => Option String
  | .setQueueFailed _ | .setActive | .setStopped => Unit
  | .popFront => Notification

def EventListenerState.access :
    (a : StateAccess) → StateAnswer a → EventListenerState → Option EventListenerState
  | .isStopped, answer, state => if state.stopped_ = answer then some state else none
  | .pushBack notification, thrown, state =>
    some (if thrown.isSome then state
      else { state with pending_ := state.pending_ ++ [notification] })
  | .setQueueFailed queue_failed, _, state => some { state with queue_failed_ := queue_failed }
  | .setActive, _, state => some { state with active_ := true }
  | .setStopped, _, state => some { state with stopped_ := true }
  | .isQueueFailed, answer, state => if state.queue_failed_ = answer then some state else none
  | .popFront, notification, state =>
    match state.pending_ with
    | [] => none
    | front :: pending =>
      if front = notification then some { state with pending_ := pending } else none

/-- The accesses that may make the condition of `run` true. -/
def StateAccess.rouses : (a : StateAccess) → StateAnswer a → Bool
  | .pushBack _, thrown => thrown.isNone
  | .setQueueFailed queue_failed, _ => queue_failed
  | .setActive, _ | .setStopped, _ => true
  | _, _ => false

theorem EventListenerState.ready_iff {state : EventListenerState} : state.ready = true ↔
    state.stopped_ = true ∨
      (state.active_ = true ∧ (state.queue_failed_ = true ∨ state.pending_ ≠ [])) := by
  unfold ready
  simp

/-- The other accesses do not. -/
theorem StateAccess.calm {a : StateAccess} {r : StateAnswer a} {state state' : EventListenerState}
    (hcalm : a.rouses r = false) (haccess : EventListenerState.access a r state = some state')
    (hready : state'.ready = true) : state.ready = true := by
  unfold EventListenerState.access at haccess
  rw [EventListenerState.ready_iff] at hready ⊢
  cases a with
  | isStopped | isQueueFailed =>
    simp only at haccess
    split at haccess
    · cases haccess
      exact hready
    · cases haccess
  | pushBack notification =>
    simp only at haccess
    cases r with
    | none => cases hcalm
    | some what =>
      cases haccess
      exact hready
  | setQueueFailed queue_failed =>
    have hfalse : queue_failed = false := hcalm
    cases haccess
    rcases hready with hstopped | ⟨hactive, hfailed | hpending⟩
    · exact Or.inl hstopped
    · exact absurd (hfalse.symm.trans hfailed) Bool.false_ne_true
    · exact Or.inr ⟨hactive, Or.inr hpending⟩
  | setActive | setStopped => cases hcalm
  | popFront =>
    simp only at haccess
    split at haccess
    · cases haccess
    · rename_i front pending hpending
      split at haccess
      · cases haccess
        rcases hready with hstopped | ⟨hactive, _⟩
        · exact Or.inl hstopped
        · exact Or.inr ⟨hactive, Or.inr (by simp [hpending])⟩
      · cases haccess

/-- The condition of `wakeup_`. -/
def wakeup_ : Condition EventListenerState StateAccess StateAnswer where
  ready := EventListenerState.ready
  access := EventListenerState.access
  rouses := StateAccess.rouses
  calm := StateAccess.calm

/-! ## The methods -/

abbrev StateAction := MonitorAction StateAccess ListenerAction

abbrev Monitored := Prog StateAction (MonitorAnswer StateAnswer ListenerAnswer)

namespace monitored

abbrev perform (action : StateAction) :
    Monitored (MonitorAnswer StateAnswer ListenerAnswer action) :=
  Prog.perform action

abbrev access (a : StateAccess) : Monitored (StateAnswer a) := perform (.access a)

/-- What the dispatcher does without the mutex. -/
abbrev outside {α : Type} (p : Listening α) : Monitored α := Prog.lift MonitorAction.outside p

def guarded {α : Type} (body : Monitored α) : Monitored α := do
  perform .lock
  let result ← body
  perform .unlock
  return result

def enqueue (notification : Notification) : Monitored (Option String) :=
  guarded do
    if ← access .isStopped then return none
    else
      match ← access (.pushBack notification) with
      | some what => return some what
      | none =>
        perform .notifyOne
        return none

/-- A change of one field and its notification, under the mutex. -/
def change (a : StateAccess) : Monitored Unit :=
  guarded do
    let _ ← access a
    perform .notifyOne

def reportQueueFailure : Monitored Unit := change (.setQueueFailed true)

def activate : Monitored Unit := change .setActive

def stop : Monitored Unit := change .setStopped

/-- `wakeup_.wait`, followed for so many tests of its condition. -/
def wait : Nat → Monitored Bool
  | 0 => return false
  | turns + 1 => do
    if ← perform .test then return true
    else
      perform .sleep
      perform .wake
      wait turns

/-- What the dispatcher takes when its wait ends. -/
def take (turns : Nat) : Monitored Turn := do
  if ← wait turns then
    if ← access .isStopped then return .stopped
    else if ← access .isQueueFailed then
      access (.setQueueFailed false)
      return .queueFailed
    else
      let notification ← access .popFront
      return .taken notification
  else return .asleep

/-- The loop of `run`. It ends with whether it returned. -/
def run (l : ListenerId) : Nat → PortMap → Monitored Bool
  | 0, _ => return false
  | turns + 1, ports => do
    perform .lock
    match ← take turns with
    | .asleep => return false
    | .stopped =>
      perform .unlock
      return true
    | .queueFailed =>
      perform .unlock
      outside (listener.reportError l none "Could not queue a serial device notification")
      run l turns ports
    | .taken notification =>
      perform .unlock
      let ports ← outside (listener.deliver l ports notification)
      run l turns ports

end monitored

/-- The calls of the methods, of which only `run` waits. -/
inductive StateMethod
  | enqueue (notification : Notification)
  | reportQueueFailure
  | activate
  | stop
  | run (l : ListenerId) (turns : Nat) (ports : PortMap)

def StateMethod.waits : StateMethod → Bool
  | .run .. => true
  | _ => false

def StateMethod.program : StateMethod → Monitored Bool
  | .enqueue notification => do
    let _ ← monitored.enqueue notification
    return true
  | .reportQueueFailure => do
    monitored.reportQueueFailure
    return true
  | .activate => do
    monitored.activate
    return true
  | .stop => do
    monitored.stop
    return true
  | .run l turns ports => monitored.run l turns ports

/-! ## What the methods do to the fields -/

namespace monitored

variable {state state' : EventListenerState}

theorem enqueue_refines {notification : Notification} {thrown : Option String}
    (h : Exec wakeup_.step state (enqueue notification) state' thrown) :
    state' = if thrown.isSome then state else state.enqueue notification := by
  obtain ⟨_, _, hlock, h⟩ := exec_act h
  cases hlock
  obtain ⟨stopped, _, hread, h⟩ := exec_act h
  obtain ⟨rfl, hsame⟩ := Option.ite_none_right_eq_some.mp hread
  cases hsame
  cases hstopped : state.stopped_ with
  | true =>
    rw [hstopped] at h
    obtain ⟨_, _, hunlock, h⟩ := exec_act h
    cases hunlock
    obtain ⟨rfl, rfl⟩ := exec_ret h
    exact (if_pos hstopped).symm
  | false =>
    rw [hstopped] at h
    obtain ⟨failed, _, hpush, h⟩ := exec_act h
    cases hpush
    cases failed with
    | some what =>
      obtain ⟨_, _, hunlock, h⟩ := exec_act h
      cases hunlock
      obtain ⟨rfl, rfl⟩ := exec_ret h
      rfl
    | none =>
      obtain ⟨_, _, hnotify, h⟩ := exec_act h
      cases hnotify
      obtain ⟨_, _, hunlock, h⟩ := exec_act h
      cases hunlock
      obtain ⟨rfl, rfl⟩ := exec_ret h
      exact (if_neg (by simp [hstopped])).symm

theorem change_refines {a : StateAccess} (h : Exec wakeup_.step state (change a) state' ()) :
    ∃ r, EventListenerState.access a r state = some state' := by
  obtain ⟨_, _, hlock, h⟩ := exec_act h
  cases hlock
  obtain ⟨r, _, haccess, h⟩ := exec_act h
  obtain ⟨_, _, hnotify, h⟩ := exec_act h
  cases hnotify
  obtain ⟨_, _, hunlock, h⟩ := exec_act h
  cases hunlock
  obtain ⟨rfl, _⟩ := exec_ret h
  exact ⟨r, haccess⟩

theorem reportQueueFailure_refines (h : Exec wakeup_.step state reportQueueFailure state' ()) :
    state' = state.reportQueueFailure := by
  obtain ⟨_, haccess⟩ := change_refines (a := .setQueueFailed true) h
  cases haccess
  rfl

theorem activate_refines (h : Exec wakeup_.step state activate state' ()) :
    state' = state.activate := by
  obtain ⟨_, haccess⟩ := change_refines (a := .setActive) h
  cases haccess
  rfl

theorem stop_refines (h : Exec wakeup_.step state stop state' ()) : state' = state.stop := by
  obtain ⟨_, haccess⟩ := change_refines (a := .setStopped) h
  cases haccess
  rfl

theorem wait_refines {turns : Nat} {ended : Bool}
    (h : Exec wakeup_.step state (wait turns) state' ended) :
    state' = state ∧ (ended = true → state.ready = true) := by
  induction turns with
  | zero =>
    obtain ⟨rfl, rfl⟩ := exec_ret h
    exact ⟨rfl, nofun⟩
  | succ turns ih =>
    obtain ⟨ready, _, htest, h⟩ := exec_act h
    obtain ⟨hready, hsame⟩ := Option.ite_none_right_eq_some.mp htest
    cases hsame
    cases ready with
    | true =>
      obtain ⟨rfl, _⟩ := exec_ret h
      exact ⟨rfl, fun _ => hready⟩
    | false =>
      obtain ⟨_, _, hsleep, h⟩ := exec_act h
      cases hsleep
      obtain ⟨_, _, hwake, h⟩ := exec_act h
      cases hwake
      exact ih h

/-- What the dispatcher takes is what one evaluation of the condition of `run` ends with. -/
theorem take_refines {turns : Nat} {turn : Turn}
    (h : Exec wakeup_.step state (take turns) state' turn) (hended : turn ≠ .asleep) :
    state.check = (turn, state') := by
  obtain ⟨_, ended, hwait, h⟩ := exec_bind h
  obtain ⟨rfl, hready⟩ := wait_refines hwait
  cases ended with
  | false => exact absurd (exec_ret h).2 hended
  | true =>
    unfold EventListenerState.check
    rw [if_pos (hready rfl)]
    obtain ⟨stopped, _, hread, h⟩ := exec_act h
    obtain ⟨hstopped, hsame⟩ := Option.ite_none_right_eq_some.mp hread
    cases hsame
    cases stopped with
    | true =>
      obtain ⟨rfl, rfl⟩ := exec_ret h
      exact if_pos hstopped
    | false =>
      rw [if_neg (by simp [hstopped])]
      obtain ⟨failed, _, hread, h⟩ := exec_act h
      obtain ⟨hfailed, hsame⟩ := Option.ite_none_right_eq_some.mp hread
      cases hsame
      cases failed with
      | true =>
        obtain ⟨_, _, hclear, h⟩ := exec_act h
        cases hclear
        obtain ⟨rfl, rfl⟩ := exec_ret h
        exact if_pos hfailed
      | false =>
        rw [if_neg (by simp [hfailed])]
        obtain ⟨notification, _, hpop, h⟩ := exec_act h
        change EventListenerState.access .popFront _ _ = _ at hpop
        unfold EventListenerState.access at hpop
        simp only at hpop
        split at hpop
        · cases hpop
        · rename_i front pending hpending
          obtain ⟨rfl, hsame⟩ := Option.ite_none_right_eq_some.mp hpop
          cases hsame
          obtain ⟨rfl, rfl⟩ := exec_ret h
          rw [hpending]

/-- The methods on the monitor do to the fields what they do without it. -/
theorem methods_refine {spurious : Bool} {t : Nat} {w w' : MonitorState Nat EventListenerState} :
    (∀ notification thrown,
      Exec (MonitorState.perform wakeup_ spurious t) w (enqueue notification) w' thrown →
      w'.data = if thrown.isSome then w.data else w.data.enqueue notification) ∧
    (Exec (MonitorState.perform wakeup_ spurious t) w reportQueueFailure w' () →
      w'.data = w.data.reportQueueFailure) ∧
    (Exec (MonitorState.perform wakeup_ spurious t) w activate w' () →
      w'.data = w.data.activate) ∧
    (Exec (MonitorState.perform wakeup_ spurious t) w stop w' () → w'.data = w.data.stop) ∧
    ∀ turns turn, Exec (MonitorState.perform wakeup_ spurious t) w (take turns) w' turn →
      turn ≠ .asleep → w.data.check = (turn, w'.data) := by
  refine ⟨fun _ _ h => ?_, fun h => ?_, fun h => ?_, fun h => ?_, fun _ _ h hended => ?_⟩
  · exact enqueue_refines (exec_data h)
  · exact reportQueueFailure_refines (exec_data h)
  · exact activate_refines (exec_data h)
  · exact stop_refines (exec_data h)
  · exact take_refines (exec_data h) hended

end monitored

/-! ## The discipline of the methods -/

namespace monitored

/-- The dispatcher is not inside the wait, and has the mutex when the wait ended. -/
def Took (g : Duty) (ended : Bool) : Prop :=
  g.sleeping = false ∧ (ended = true → g = { waits := true, locked := true })

theorem wait_disciplined (turns : Nat) :
    Follows (discipline StateAccess.rouses) Took (wait turns)
      { waits := true, locked := true } := by
  induction turns with
  | zero => exact ⟨rfl, nofun⟩
  | succ turns ih =>
    refine ⟨⟨rfl, rfl⟩, fun ready g' hn => ?_⟩
    cases hn
    cases ready with
    | true => exact ⟨rfl, fun _ => rfl⟩
    | false =>
      refine ⟨⟨rfl, rfl, rfl⟩, fun _ g' hn => ?_⟩
      cases hn
      refine ⟨rfl, fun _ g' hn => ?_⟩
      cases hn
      exact ih

theorem take_disciplined (turns : Nat) :
    Follows (discipline StateAccess.rouses) (fun g turn => Took g (turn ≠ .asleep)) (take turns)
      { waits := true, locked := true } := by
  refine follows_seq (wait_disciplined turns) fun g ended htook => ?_
  cases ended with
  | false => exact ⟨htook.1, by simp⟩
  | true =>
    rw [htook.2 rfl]
    refine ⟨⟨rfl, rfl⟩, fun stopped g' hn => ?_⟩
    cases hn
    cases stopped with
    | true => exact ⟨rfl, fun _ => rfl⟩
    | false =>
      refine ⟨⟨rfl, rfl⟩, fun failed g' hn => ?_⟩
      cases hn
      cases failed with
      | true =>
        refine ⟨⟨rfl, rfl⟩, fun _ g' hn => ?_⟩
        cases hn
        exact ⟨rfl, fun _ => rfl⟩
      | false =>
        refine ⟨⟨rfl, rfl⟩, fun notification g' hn => ?_⟩
        cases hn
        exact ⟨rfl, fun _ => rfl⟩

/-- The dispatcher lets go of the mutex before it calls the application, and it wakes nobody. -/
theorem run_disciplined (l : ListenerId) (turns : Nat) (ports : PortMap) :
    Follows (discipline StateAccess.rouses) Duty.Ended (run l turns ports) { waits := true } := by
  induction turns generalizing ports with
  | zero => exact ⟨rfl, nofun⟩
  | succ turns ih =>
    refine ⟨⟨rfl, rfl⟩, fun _ g' hn => ?_⟩
    cases hn
    change Follows _ _ (take turns >>= _) ({ waits := true, locked := true } : Duty)
    refine follows_seq (take_disciplined turns) fun g turn htook => ?_
    cases turn with
    | asleep => exact ⟨htook.1, nofun⟩
    | stopped =>
      rw [htook.2 rfl]
      refine ⟨⟨rfl, rfl, rfl⟩, fun _ g' hn => ?_⟩
      cases hn
      exact ⟨rfl, fun _ => rfl⟩
    | queueFailed =>
      rw [htook.2 rfl]
      refine ⟨⟨rfl, rfl, rfl⟩, fun _ g' hn => ?_⟩
      cases hn
      exact follows_outside rfl fun _ => ih ports
    | taken notification =>
      rw [htook.2 rfl]
      refine ⟨⟨rfl, rfl, rfl⟩, fun _ g' hn => ?_⟩
      cases hn
      exact follows_outside rfl fun ports => ih ports

theorem change_disciplined (a : StateAccess) : Follows (discipline StateAccess.rouses) Duty.Ended
    (change a >>= fun _ => .ret true) {} := by
  refine ⟨⟨rfl, rfl⟩, fun _ g1 hn => ?_⟩
  cases hn
  refine ⟨⟨rfl, rfl⟩, fun _ g2 hn => ?_⟩
  cases hn
  refine ⟨rfl, fun _ g3 hn => ?_⟩
  cases hn
  refine ⟨⟨rfl, rfl, rfl⟩, fun _ g4 hn => ?_⟩
  cases hn
  exact ⟨rfl, fun _ => rfl⟩

theorem enqueue_disciplined (notification : Notification) :
    Follows (discipline StateAccess.rouses) Duty.Ended
      (StateMethod.enqueue notification).program {} := by
  refine ⟨⟨rfl, rfl⟩, fun _ g1 hn => ?_⟩
  cases hn
  refine ⟨⟨rfl, rfl⟩, fun stopped g2 hn => ?_⟩
  cases hn
  have hreturns : Follows (discipline StateAccess.rouses) Duty.Ended
      (.act .unlock fun _ => (.ret true : Monitored Bool)) { locked := true } := by
    refine ⟨⟨rfl, rfl, rfl⟩, fun _ g4 hn => ?_⟩
    cases hn
    exact ⟨rfl, fun _ => rfl⟩
  cases stopped with
  | true => exact hreturns
  | false =>
    refine ⟨⟨rfl, rfl⟩, fun thrown g3 hn => ?_⟩
    cases hn
    cases thrown with
    | some what => exact hreturns
    | none =>
      refine ⟨rfl, fun _ g4 hn => ?_⟩
      cases hn
      exact hreturns

end monitored

theorem methods_disciplined : Disciplined wakeup_ StateMethod.waits StateMethod.program := by
  intro c
  cases c with
  | enqueue notification => exact monitored.enqueue_disciplined notification
  | reportQueueFailure => exact monitored.change_disciplined (.setQueueFailed true)
  | activate => exact monitored.change_disciplined .setActive
  | stop => exact monitored.change_disciplined .setStopped
  | run l turns ports => exact monitored.run_disciplined l turns ports

/-! ## The dispatcher -/

/-- Any threads that call the methods of one `EventListenerState`, of which one call is `run`. -/
def dispatcherMachine (spurious : Bool) : Machine Nat StateAction
    (MonitorAnswer StateAnswer ListenerAnswer) StateMethod Bool
      (MonitorState Nat EventListenerState) :=
  machine wakeup_ spurious StateMethod.waits StateMethod.program

abbrev DispatchingLabel :=
  Label Nat StateAction (MonitorAnswer StateAnswer ListenerAnswer) StateMethod Bool

abbrev DispatchingSys := Sys Nat StateAction (MonitorAnswer StateAnswer ListenerAnswer) StateMethod
  Bool (MonitorState Nat EventListenerState)

/-- While the mutex is free, a dispatcher sleeps without a notification only when its condition is
false. When the condition is true, a dispatcher inside the wait can wake up. -/
theorem the_dispatcher_has_no_lost_wakeup (spurious : Bool) {ls : List DispatchingLabel}
    {s : DispatchingSys} (h : Runs (dispatcherMachine spurious) always { data := {} } ls s)
    (hfree : s.shared.holder = none) :
    (s.shared.waiter = .asleep → s.shared.data.ready = false) ∧
      (s.shared.waiter ≠ .awake → s.shared.data.ready = true →
        ∃ t s', Step (dispatcherMachine spurious) s (.did t .wake ()) s') :=
  no_lost_wakeup methods_disciplined h hfree

/-- The answers of the fields, where nothing fails. -/
def stateAnswer (_ : Nat) (w : MonitorState Nat EventListenerState) :
    (e : StateAction) → MonitorAnswer StateAnswer ListenerAnswer e
  | .test => w.data.ready
  | .access .isStopped => w.data.stopped_
  | .access .isQueueFailed => w.data.queue_failed_
  | .access (.pushBack _) => none
  | .access (.setQueueFailed _) | .access .setActive | .access .setStopped => ()
  | .access .popFront => w.data.pending_.headD ⟨.kAttached, []⟩
  | .outside action => quietAnswer action
  | .lock | .unlock | .notifyOne | .sleep | .wake => ()

/-- The dispatcher sleeps. A device comes, and wakes it for nothing, as it is not active. When it
sleeps again, it is activated. -/
def activation : List (Move Nat StateAction (MonitorAnswer StateAnswer ListenerAnswer) StateMethod
    (MonitorState Nat EventListenerState)) :=
  [.enter 0 (.run 0 3 ∅)] ++ List.replicate 3 (.act 0 stateAnswer) ++
  [.enter 1 (.enqueue ⟨.kAttached, [65]⟩)] ++ List.replicate 5 (.act 1 stateAnswer) ++ [.leave 1] ++
  List.replicate 3 (.act 0 stateAnswer) ++
  [.enter 1 .activate] ++ List.replicate 4 (.act 1 stateAnswer) ++ [.leave 1]

/-- A notification that came before the activation wakes the dispatcher when it is activated. -/
theorem an_activation_wakes_the_dispatcher :
    ∃ ls s, Runs (dispatcherMachine false) always { data := {} } ls s ∧
      s.shared.waiter = .notified ∧
      s.shared.data.pending_ = [⟨.kAttached, [65]⟩] ∧
      ∃ t s', Step (dispatcherMachine false) s (.did t .wake ()) s' := by
  obtain ⟨ls, s, hr, hx⟩ := Sys.moves_exists (dispatcherMachine false) always { data := {} }
    activation
    (fun _ s => (s.shared.holder, s.shared.waiter, s.shared.data))
    (x := (none, .notified, { pending_ := [⟨.kAttached, [65]⟩], active_ := true })) rfl
  simp only [Prod.mk.injEq] at hx
  obtain ⟨hfree, hwaiter, hdata⟩ := hx
  obtain ⟨_, hwakes⟩ := the_dispatcher_has_no_lost_wakeup false hr hfree
  refine ⟨ls, s, hr, hwaiter, by rw [hdata], hwakes (by simp [hwaiter]) ?_⟩
  rw [hdata]
  rfl

end cpp_bindings_windows
