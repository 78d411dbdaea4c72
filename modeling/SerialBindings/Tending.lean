-- What a call has of the listeners: the replacement that it makes, the listener
-- that it displaced, the mutexes that it holds. Every call of the module keeps
-- to one protocol about them.
import SerialBindings.EventModule

open programs

namespace cpp_bindings_windows

/-! ## The protocol of a call -/

/-- How far a call is. `making`: the replacement is made, its thread not started. `ready`: it may
be installed. `locked` to `installed`: under `g_event_listener_mutex`, with the old listener
moved out, stopped, and the new one stored, activated. `retiring` to `joined`: the old listener
is destroyed, by a thread of its own or by another. `failing`, `released`: the replacement is
destroyed instead, and its notification is gone. -/
inductive Stage
  | making
  | ready
  | locked
  | moved
  | emptied
  | stored
  | installed
  | retiring
  | detaching
  | detached
  | joining
  | joined
  | failing
  | released
  | dispatching (l : ListenerId)
  | elsewhere
  deriving DecidableEq

/-- The stages under `g_event_listener_mutex`. -/
def Stage.global : Stage → Bool
  | .locked | .moved | .emptied | .stored | .installed => true
  | _ => false

/-- What a call has: its stage, the `mutex_` that it holds, whether it is inside a callback, the
replacement until it is stored, the one that is stored to be activated, and the listener that it
displaced. Of a dispatcher, whether it was `live` (found its listener active), whether it `took` a
notification that it may tell, and whether it `found` its listener stopped. A call that makes a
replacement has `failed` when an exception ended that. -/
structure Part where
  stage : Stage
  locked : Option ListenerId := none
  inUser : Bool := false
  mine : Option ListenerId := none
  fresh : Option ListenerId := none
  old : Option ListenerId := none
  live : Bool := false
  took : Bool := false
  found : Bool := false
  failed : Bool := false

/-- The actions that end a callback of the application. -/
def ListenerAction.ReturnsFromUser : ListenerAction → Bool
  | .callbackReturned _ | .reportReturned .. | .errorReturned => true
  | _ => false

/-- An error of `portName` that ends the snapshot. -/
def PortError.EndsSnapshot (error : PortError) : Bool :=
  match error.code with
  | none => true
  | some code => !hasVanished code

namespace Part

def allows (g : Part) (e : ListenerAction) : Prop :=
  g.inUser = e.ReturnsFromUser ∧ match e with
  | .lock .g_event_listener_mutex =>
    (g.stage = .ready ∨ (g.stage = .making ∧ g.mine = none ∧ g.failed = false)) ∧ g.locked = none
  | .lock (.mutex_ _) => g.locked = none
  | .unlock .g_event_listener_mutex => g.stage = .installed ∧ g.locked = none
  | .unlock (.mutex_ l) => g.locked = some l
  | .enqueue .. | .reportQueueFailure _ => g.stage = .elsewhere
  | .activate l => g.stage = .stored ∧ g.fresh = some l
  | .stop l => (g.stage = .moved ∧ g.old = some l) ∨ (g.stage = .retiring ∧ g.old = some l) ∨
      (g.stage = .making ∧ g.mine = some l ∧ g.failed = true)
  | .check l => g.stage = .dispatching l ∧ g.locked = some l
  | .wake l => g.stage = .dispatching l ∧ g.locked = none
  | .callback l _ _ _ => g.stage = .dispatching l ∧ g.locked = none ∧ g.took = true
  | .reportError l _ _ => g.stage = .dispatching l ∧ g.locked = none ∧ g.live = true
  | .invokeError .. => ((g.stage = .making ∧ g.mine = none) ∨ g.stage = .released) ∧
      g.locked = none ∧ g.failed = true
  | .makeListener => g.stage = .making ∧ g.mine = none ∧ g.failed = false
  | .registerNotification l => g.stage = .making ∧ g.mine = some l ∧ g.failed = false
  | .startThread l _ => g.stage = .making ∧ g.mine = some l ∧ g.failed = false
  | .moveListener => g.stage = .locked
  | .storeListener replacement => g.stage = .emptied ∧ replacement = g.mine
  | .hasNotification l | .unregister l =>
    (g.stage = .retiring ∧ g.old = some l) ∨ (g.stage = .failing ∧ g.mine = some l)
  | .joinable l => (g.stage = .retiring ∧ g.old = some l) ∨ (g.stage = .released ∧ g.mine = some l)
  | .isCurrentThread l => g.stage = .retiring ∧ g.old = some l
  | .detach l => g.stage = .detaching ∧ g.old = some l
  | .join l => g.stage = .joining ∧ g.old = some l ∧ g.locked = none
  | .interfaceListSize | .interfaceList _ => g.stage = .making
  | .portName _ => g.stage = .making ∨ ∃ l, g.stage = .dispatching l
  | _ => True

/-- An exception in the `try` block. -/
def fail (g : Part) : Part := { g with failed := true }

def next (g : Part) : (e : ListenerAction) → ListenerAnswer e → Option Part
  | .lock .g_event_listener_mutex, _ => some { g with stage := .locked }
  | .lock (.mutex_ l), _ | .wake l, _ => some { g with locked := some l }
  | .unlock .g_event_listener_mutex, _ => some { g with stage := .retiring }
  | .unlock (.mutex_ _), _ => some { g with locked := none }
  | .activate _, _ => some { g with stage := .installed }
  | .stop _, _ => some { g with stage := match g.stage with
      | .moved => .emptied
      | .making => .failing
      | stage => stage }
  | .check _, .asleep => some { g with locked := none, took := false }
  | .check _, .stopped => some { g with took := false, found := true }
  | .check _, .queueFailed => some { g with live := true, took := false }
  | .check _, .taken _ => some { g with live := true, took := true }
  | .callback .., _ | .reportError .., _ | .invokeError .., _ =>
    some { g with inUser := true, took := false }
  | .callbackReturned _, _ | .reportReturned .., _ | .errorReturned, _ =>
    some { g with inUser := false }
  | .makeListener, .ok l => some { g with mine := some l }
  | .makeListener, .error _ => some g.fail
  | .registerNotification _, some _ => some g.fail
  | .interfaceListSize, .error _ => some g.fail
  | .interfaceList _, .failed _ => some g.fail
  | .portName _, .error error =>
    some (if g.stage = .making ∧ error.EndsSnapshot = true then g.fail else g)
  | .startThread .., none => some { g with stage := .ready }
  | .startThread .., some _ => some g.fail
  | .moveListener, previous =>
    some { g with stage := if previous.isSome then .moved else .emptied, old := previous }
  | .storeListener replacement, _ => some { g with
      stage := if replacement.isSome then .stored else .installed
      mine := none
      fresh := replacement }
  | .hasNotification _, registered =>
    some { g with stage := if g.stage = .failing ∧ registered = false then .released else g.stage }
  | .unregister _, _ => some { g with stage := if g.stage = .failing then .released else g.stage }
  -- a displaced listener has its thread, and one that failed has none
  | .joinable _, answer => if answer = decide (g.stage = .retiring) then some g else none
  | .isCurrentThread _, answer => some { g with stage := if answer then .detaching else .joining }
  | .detach _, _ => some { g with stage := .detached }
  | .join _, _ => some { g with stage := .joined }
  | _, _ => some g

/-- The mutexes that a call holds. -/
def Holds (g : Part) : Mutex → Prop
  | .g_event_listener_mutex => g.stage.global = true
  | .mutex_ l => g.locked = some l

/-- The old listener of a call is retired, when there is one. -/
def Retired (g : Part) : Prop := g.old = none ∨ g.stage = .detached ∨ g.stage = .joined

/-- What a call has when it holds nothing and is inside no callback. -/
def Free (g : Part) : Prop := g.inUser = false ∧ g.locked = none

/-- A call that returns is free, has retired what it displaced, and has released a replacement
that it did not install. A dispatcher returns when it has found its listener stopped. -/
structure Ends (g : Part) : Prop where
  free : g.Free
  global : g.stage.global = false
  retired : g.Retired
  mine : g.mine = none ∨ g.stage = .released
  found : ∀ l, g.stage = .dispatching l → g.found = true

end Part

def tending : Protocol ListenerAction ListenerAnswer Part where
  allows := Part.allows
  next := Part.next

/-- Where each call starts. -/
def ModuleCall.part : ModuleCall → Part
  | .set .. => { stage := .making }
  | .deviceNotification .. => { stage := .elsewhere }
  | .dispatch l _ => { stage := .dispatching l }

section Programs

variable {α : Type} {Q : Part → α → Prop} {g : Part} {l : ListenerId}

/-- The rule for an action whose next state is known. -/
theorem tending_act {e : ListenerAction} {k : ListenerAnswer e → Listening α}
    (hallows : tending.allows g e) {f : ListenerAnswer e → Part}
    (hnext : ∀ r, tending.next g e r = some (f r)) (h : ∀ r, Follows tending Q (k r) (f r)) :
    Follows tending Q (.act e k) g := by
  refine ⟨hallows, fun r g' hn => ?_⟩
  rw [hnext r] at hn
  cases hn
  exact h r

/-- A method of the state: it holds the `mutex_` for its one action. -/
theorem method_tends {e : ListenerAction} {f : ListenerAnswer e → Listening α}
    (hout : g.inUser = false) (hfree : g.locked = none)
    {after : Part} (hallows : tending.allows { g with locked := some l } e)
    (hnext : ∀ r, tending.next { g with locked := some l } e r = some after)
    (hafter : after.inUser = false ∧ after.locked = some l)
    (hf : ∀ r, Follows tending Q (f r) { after with locked := none }) :
    Follows tending Q (listener.guarded (.mutex_ l) (listener.perform e) >>= f) g := by
  refine tending_act ⟨hout, hfree⟩ (fun _ => rfl) fun _ => ?_
  refine tending_act hallows hnext fun r => ?_
  exact tending_act ⟨hafter.1, hafter.2⟩ (fun _ => rfl) fun _ => hf r

/-! ## Notifications -/

/-- A native notification holds nothing when it returns. -/
theorem deviceNotification_tends (chars : CharUpper) (l : ListenerId) (action : Nat)
    (data : CM_NOTIFY_EVENT_DATA) :
    Follows tending (fun g' _ => g'.Ends) (listener.deviceNotification chars l action data)
      { stage := .elsewhere } := by
  have hends : ({ stage := .elsewhere } : Part).Ends :=
    ⟨⟨rfl, rfl⟩, rfl, Or.inl rfl, Or.inl rfl, nofun⟩
  unfold listener.deviceNotification
  split
  · exact hends
  · unfold listener.enqueue
    refine method_tends rfl rfl ⟨rfl, rfl⟩ (fun _ => rfl) ⟨rfl, rfl⟩ fun thrown => ?_
    cases thrown with
    | none => exact hends
    | some what => exact method_tends rfl rfl ⟨rfl, rfl⟩ (fun _ => rfl) ⟨rfl, rfl⟩ fun _ => hends

/-! ## The dispatcher -/

/-- The call of `report_error` by a dispatcher that was live. -/
theorem reportError_tends {about : Option WString} {message : String} {f : Unit → Listening α}
    (hstage : g.stage = .dispatching l) (hout : g.inUser = false) (hfree : g.locked = none)
    (hlive : g.live = true) (hf : Follows tending Q (f ()) { g with took := false }) :
    Follows tending Q (listener.reportError l about message >>= f) g := by
  refine tending_act ⟨hout, hstage, hfree, hlive⟩ (fun _ => rfl) fun _ => ?_
  refine tending_act ⟨rfl, trivial⟩ (fun _ => rfl) fun _ => ?_
  rw [show ({ g with took := false } : Part) = { g with inUser := false, took := false } by
    rw [← hout]] at hf
  exact hf

theorem invokeCallback_tends {path : WString} {event : PortEvent} {port : String}
    {f : Unit → Listening α} (hstage : g.stage = .dispatching l) (hout : g.inUser = false)
    (hfree : g.locked = none) (hlive : g.live = true) (htook : g.took = true)
    (hf : Follows tending Q (f ()) { g with took := false }) :
    Follows tending Q (listener.invokeCallback l path event port >>= f) g := by
  refine tending_act ⟨hout, hstage, hfree, htook⟩ (fun _ => rfl) fun _ => ?_
  refine tending_act ⟨rfl, trivial⟩ (fun _ => rfl) fun thrown => ?_
  have hg : ({ g with took := false } : Part) = { g with inUser := false, took := false } := by
    rw [← hout]
  rw [hg] at hf
  cases thrown with
  | none => exact hf
  | some what => exact reportError_tends hstage rfl hfree hlive hf

/-- A dispatcher between two turns. -/
structure Part.Idle (l : ListenerId) (g : Part) : Prop where
  stage : g.stage = .dispatching l
  out : g.inUser = false
  free : g.locked = none
  old : g.old = none
  mine : g.mine = none

theorem Part.Idle.ends (h : g.Idle l) (hfound : g.found = true) : g.Ends := by
  refine ⟨⟨h.out, h.free⟩, ?_, Or.inl h.old, Or.inl h.mine, fun _ _ => hfound⟩
  rw [h.stage]
  rfl

theorem deliver_tends (ports : PortMap) (notification : Notification) (hidle : g.Idle l)
    (hlive : g.live = true) (htook : g.took = true) :
    Follows tending (fun g' _ => g'.Idle l) (listener.deliver l ports notification) g := by
  obtain ⟨hstage, hout, hfree, hold, hmine⟩ := hidle
  have hafter : ({ g with took := false } : Part).Idle l := ⟨hstage, hout, hfree, hold, hmine⟩
  unfold listener.deliver
  cases notification.event with
  | kAttached =>
    cases ports.lookup notification.path with
    | some port => exact ⟨hstage, hout, hfree, hold, hmine⟩
    | none =>
      refine ⟨⟨hout, Or.inr ⟨l, hstage⟩⟩, fun resolved g' hn => ?_⟩
      cases resolved with
      | error error =>
        have hsame : g' = g := by
          have hnot : ¬ (g.stage = .making ∧ error.EndsSnapshot = true) := by
            rw [hstage]
            exact nofun
          have hnext : some (if g.stage = .making ∧ error.EndsSnapshot = true then g.fail else g) =
            some g' := hn
          rw [if_neg hnot] at hnext
          exact (Option.some.inj hnext).symm
        rw [hsame]
        exact reportError_tends hstage hout hfree hlive hafter
      | ok port =>
        cases hn
        exact invokeCallback_tends hstage hout hfree hlive htook hafter
  | kDetached =>
    cases ports.lookup notification.path with
    | none => exact ⟨hstage, hout, hfree, hold, hmine⟩
    | some port => exact invokeCallback_tends hstage hout hfree hlive htook hafter

/-- A dispatcher that holds its `mutex_`, with what it knows after a turn of the wait. -/
structure Part.Woken (l : ListenerId) (turn : Turn) (g : Part) : Prop where
  stage : g.stage = .dispatching l
  out : g.inUser = false
  old : g.old = none
  mine : g.mine = none
  locked : turn ≠ .asleep → g.locked = some l
  failed : turn = .queueFailed → g.live = true
  taken : ∀ notification, turn = .taken notification → g.live = true ∧ g.took = true
  found : turn = .stopped → g.found = true

theorem wait_tends (turns : Nat) (hstage : g.stage = .dispatching l) (hout : g.inUser = false)
    (hlocked : g.locked = some l) (hold : g.old = none) (hmine : g.mine = none) :
    Follows tending (fun g' turn => g'.Woken l turn) (listener.wait l turns) g := by
  induction turns generalizing g with
  | zero => exact ⟨hstage, hout, hold, hmine, fun hnot => absurd rfl hnot, nofun, nofun, nofun⟩
  | succ turns ih =>
    refine ⟨⟨hout, hstage, hlocked⟩, fun turn g' hn => ?_⟩
    cases turn with
    | asleep =>
      cases hn
      exact tending_act ⟨hout, hstage, rfl⟩ (fun _ => rfl) fun _ => ih hstage hout rfl hold hmine
    | stopped =>
      cases hn
      exact ⟨hstage, hout, hold, hmine, fun _ => hlocked, nofun, nofun, fun _ => rfl⟩
    | queueFailed =>
      cases hn
      exact ⟨hstage, hout, hold, hmine, fun _ => hlocked, fun _ => rfl, nofun, nofun⟩
    | taken notification =>
      cases hn
      exact ⟨hstage, hout, hold, hmine, fun _ => hlocked, nofun, fun _ _ => ⟨rfl, rfl⟩, nofun⟩

theorem run_tends (turns : Nat) (ports : PortMap) (hidle : g.Idle l) :
    Follows tending (fun g' rest => rest = none → g'.Idle l ∧ g'.found = true)
      (listener.run l turns ports) g := by
  induction turns generalizing g ports with
  | zero => exact nofun
  | succ turns ih =>
    obtain ⟨hstage, hout, hfree, hold, hmine⟩ := hidle
    refine tending_act ⟨hout, hfree⟩ (fun _ => rfl) fun _ => ?_
    dsimp only [Prog.bind]
    have hwait := wait_tends (g := { g with locked := some l }) turns hstage hout rfl hold hmine
    refine follows_seq hwait fun g' turn hturn => ?_
    have hunlock : ∀ {Q : Part → Option PortMap → Prop} {f : Unit → Listening (Option PortMap)},
        turn ≠ .asleep → Follows tending Q (f ()) { g' with locked := none } →
        Follows tending Q (.act (.unlock (.mutex_ l)) f) g' := by
      intro Q f hawake hf
      exact tending_act ⟨hturn.out, hturn.locked hawake⟩ (fun _ => rfl) fun _ => hf
    have hidle : ({ g' with locked := none } : Part).Idle l :=
      ⟨hturn.stage, hturn.out, rfl, hturn.old, hturn.mine⟩
    cases turn with
    | asleep => exact nofun
    | stopped => exact hunlock nofun fun _ => ⟨hidle, hturn.found rfl⟩
    | queueFailed =>
      refine hunlock nofun ?_
      refine reportError_tends hturn.stage hturn.out rfl (hturn.failed rfl) ?_
      exact ih ports ⟨hturn.stage, hturn.out, rfl, hturn.old, hturn.mine⟩
    | taken notification =>
      refine hunlock nofun ?_
      obtain ⟨hlive, htook⟩ := hturn.taken notification rfl
      have hdeliver := deliver_tends ports notification hidle hlive htook
      dsimp only [Prog.bind]
      exact follows_seq hdeliver fun g'' ports' hidle' => ih ports' hidle'

/-! ## A replacement -/

/-- A step of the snapshot leaves a call that makes a replacement as it is, or fails it. -/
def Part.Tried {β : Type} (g : Part) (g' : Part) (result : Option (Except PortError β)) : Prop :=
  match result with
  | none => True
  | some (.error _) => g' = g.fail
  | some (.ok _) => g' = g

theorem interfaces_tend (attempts : Nat) (hout : g.inUser = false) (hstage : g.stage = .making) :
    Follows tending g.Tried (listener.interfaces attempts) g := by
  induction attempts with
  | zero => trivial
  | succ attempts ih =>
    refine ⟨⟨hout, hstage⟩, fun size g' hn => ?_⟩
    cases size with
    | error error =>
      cases hn
      exact rfl
    | ok length =>
      cases hn
      refine ⟨⟨hout, hstage⟩, fun answer g' hn => ?_⟩
      cases answer with
      | bufferSmall =>
        cases hn
        exact ih
      | failed error =>
        cases hn
        exact rfl
      | listed buffer =>
        cases hn
        exact rfl

theorem snapshot_tends (chars : CharUpper) (path buffer : WString) (ports : PortMap)
    (hout : g.inUser = false) (hstage : g.stage = .making) :
    Follows tending g.Tried (listener.snapshot chars path buffer ports) g := by
  induction buffer generalizing path ports with
  | nil => trivial
  | cons unit buffer ih =>
    unfold listener.snapshot
    split
    · exact ih _ _
    · split
      · exact rfl
      · refine ⟨⟨hout, Or.inl hstage⟩, fun resolved g' hn => ?_⟩
        cases resolved with
        | ok port =>
          cases hn
          exact ih _ _
        | error error =>
          have hnext : some (if g.stage = .making ∧ error.EndsSnapshot = true then g.fail else g) =
            some g' := hn
          have hg' := (Option.some.inj hnext).symm
          dsimp only [Prog.bind]
          split
          · rename_i hcode
            have hends : error.EndsSnapshot = true := by
              unfold PortError.EndsSnapshot
              rw [hcode]
            rw [if_pos ⟨hstage, hends⟩] at hg'
            exact hg'
          · rename_i code hcode
            have hends : error.EndsSnapshot = !hasVanished code := by
              unfold PortError.EndsSnapshot
              rw [hcode]
            split
            · rename_i hvanished
              rw [hends, hvanished, if_neg (by simp)] at hg'
              rw [hg']
              exact ih _ _
            · rename_i hother
              rw [Bool.not_eq_true] at hother
              rw [hends, hother, if_pos ⟨hstage, rfl⟩] at hg'
              exact hg'

theorem existingPorts_tend (chars : CharUpper) (attempts : Nat) (hout : g.inUser = false)
    (hstage : g.stage = .making) :
    Follows tending g.Tried (listener.existingPorts chars attempts) g := by
  refine follows_seq (interfaces_tend attempts hout hstage) fun g' result hresult => ?_
  match result with
  | none => trivial
  | some (.error error) => exact hresult
  | some (.ok buffer) =>
    have hsame : g' = g := hresult
    rw [hsame]
    exact snapshot_tends chars [] buffer ∅ hout hstage

/-- A replacement is made with its thread, or without its thread when something fails. -/
theorem makeReplacement_tends (chars : CharUpper) (attempts : Nat) (callback_function : Callback) :
    Follows tending (fun g' result => ∀ made, result = some made → match made with
        | .error (replacement, _) => g' = { stage := .making, mine := replacement, failed := true }
        | .ok replacement => g' = { stage := .ready, mine := replacement } ∨
            (replacement = none ∧ g' = { stage := .making }))
      (listener.makeReplacement chars attempts callback_function) { stage := .making } := by
  unfold listener.makeReplacement
  split
  · rintro _ ⟨⟩
    exact Or.inr ⟨rfl, rfl⟩
  refine ⟨⟨rfl, rfl, rfl, rfl⟩, fun made g' hn => ?_⟩
  cases made with
  | error what =>
    cases hn
    rintro _ ⟨⟩
    exact rfl
  | ok l =>
    cases hn
    refine ⟨⟨rfl, rfl, rfl, rfl⟩, fun thrown g' hn => ?_⟩
    cases thrown with
    | some what =>
      cases hn
      rintro _ ⟨⟩
      exact rfl
    | none =>
      cases hn
      dsimp only [Prog.bind]
      refine follows_seq (existingPorts_tend chars attempts rfl rfl) fun g' result hresult => ?_
      match result with
      | none => exact nofun
      | some (.error error) =>
        rintro _ ⟨⟩
        exact hresult
      | some (.ok ports) =>
        have hsame : g' = { stage := .making, mine := some l } := hresult
        rw [hsame]
        refine ⟨⟨rfl, rfl, rfl, rfl⟩, fun thrown g' hn => ?_⟩
        cases thrown with
        | some what =>
          cases hn
          rintro _ ⟨⟩
          exact rfl
        | none =>
          cases hn
          rintro _ ⟨⟩
          exact Or.inl rfl

/-! ## The end of a listener -/

/-- A replacement without a thread is destroyed. -/
theorem destroy_replacement_tends (l : ListenerId) :
    Follows tending (fun g' _ => g' = { stage := .released, mine := some l, failed := true })
      (listener.destroy l) { stage := .making, mine := some l, failed := true } := by
  unfold listener.destroy
  refine method_tends (e := .stop l) rfl rfl ⟨rfl, Or.inr (Or.inr ⟨rfl, rfl, rfl⟩)⟩ (fun _ => rfl)
    ⟨rfl, rfl⟩ fun _ => ?_
  have hrest : Follows tending
      (fun g' _ => g' = { stage := .released, mine := some l, failed := true })
      (.act (.joinable l) fun answer => if answer = true then
        .act (.isCurrentThread l) fun current => if current = true then
          listener.perform (.detach l) else listener.perform (.join l)
        else .ret ()) { stage := .released, mine := some l, failed := true } := by
    refine ⟨⟨rfl, Or.inr ⟨rfl, rfl⟩⟩, fun answer g' hn => ?_⟩
    cases answer with
    | true => cases hn
    | false =>
      cases hn
      exact rfl
  refine ⟨⟨rfl, Or.inr ⟨rfl, rfl⟩⟩, fun registered g' hn => ?_⟩
  cases hn
  cases registered with
  | false => exact hrest
  | true => exact tending_act ⟨rfl, Or.inr ⟨rfl, rfl⟩⟩ (fun _ => rfl) fun _ => hrest

/-- A displaced listener is destroyed: its thread is detached or joined. -/
theorem destroy_previous_tends (l : ListenerId) (fresh : Option ListenerId) :
    Follows tending (fun g' _ => g'.Ends ∧ g'.failed = false) (listener.destroy l)
      { stage := .retiring, fresh, old := some l } := by
  unfold listener.destroy
  refine method_tends (e := .stop l) rfl rfl ⟨rfl, Or.inr (Or.inl ⟨rfl, rfl⟩)⟩ (fun _ => rfl)
    ⟨rfl, rfl⟩ fun _ => ?_
  have hrest : Follows tending (fun g' _ => g'.Ends ∧ g'.failed = false)
      (.act (.joinable l) fun answer => if answer = true then
        .act (.isCurrentThread l) fun current => if current = true then
          listener.perform (.detach l) else listener.perform (.join l)
        else .ret ()) { stage := .retiring, fresh, old := some l } := by
    refine ⟨⟨rfl, Or.inl ⟨rfl, rfl⟩⟩, fun answer g' hn => ?_⟩
    cases answer with
    | false => cases hn
    | true =>
      cases hn
      refine tending_act ⟨rfl, rfl, rfl⟩ (fun _ => rfl) fun current => ?_
      cases current with
      | true =>
        exact tending_act ⟨rfl, rfl, rfl⟩ (fun _ => rfl) fun _ =>
          ⟨⟨⟨rfl, rfl⟩, rfl, Or.inr (Or.inl rfl), Or.inl rfl, nofun⟩, rfl⟩
      | false =>
        exact tending_act ⟨rfl, rfl, rfl, rfl⟩ (fun _ => rfl) fun _ =>
          ⟨⟨⟨rfl, rfl⟩, rfl, Or.inr (Or.inr rfl), Or.inl rfl, nofun⟩, rfl⟩
  refine tending_act ⟨rfl, Or.inl ⟨rfl, rfl⟩⟩ (fun _ => rfl) fun registered => ?_
  cases registered with
  | false => exact hrest
  | true => exact tending_act ⟨rfl, Or.inl ⟨rfl, rfl⟩⟩ (fun _ => rfl) fun _ => hrest

/-- The replacement is stored and activated, once the old listener is stopped. -/
theorem store_tends (replacement previous : Option ListenerId) : Follows tending
    (fun g' result => g' = { stage := .retiring, fresh := replacement, old := result })
    (.act (.storeListener replacement) fun _ => (match replacement with
      | some l => listener.activate l
      | none => .ret ()) >>= fun _ =>
        .act (.unlock .g_event_listener_mutex) fun _ => .ret previous)
    { stage := .emptied, mine := replacement, old := previous } := by
  refine tending_act ⟨rfl, rfl, rfl⟩ (fun _ => rfl) fun _ => ?_
  cases replacement with
  | none => exact tending_act ⟨rfl, rfl, rfl⟩ (fun _ => rfl) fun _ => rfl
  | some l =>
    refine method_tends (e := .activate l) rfl rfl ⟨rfl, rfl, rfl⟩ (fun _ => rfl) ⟨rfl, rfl⟩
      fun _ => ?_
    exact tending_act ⟨rfl, rfl, rfl⟩ (fun _ => rfl) fun _ => rfl

/-- The section under `g_event_listener_mutex`. -/
theorem install_tends (replacement : Option ListenerId)
    (hstage : g = { stage := .ready, mine := replacement } ∨
      (replacement = none ∧ g = { stage := .making })) :
    Follows tending
      (fun g' previous => g' = { stage := .retiring, fresh := replacement, old := previous })
      (listener.install replacement) g := by
  have hlock : tending.allows g (.lock .g_event_listener_mutex) := by
    rcases hstage with rfl | ⟨rfl, rfl⟩
    · exact ⟨rfl, Or.inl rfl, rfl⟩
    · exact ⟨rfl, Or.inr ⟨rfl, rfl, rfl⟩, rfl⟩
  have hlocked : ({ g with stage := .locked } : Part) =
      { stage := .locked, mine := replacement } := by
    rcases hstage with rfl | ⟨rfl, rfl⟩
    · rfl
    · rfl
  refine tending_act hlock (fun _ => rfl) fun _ => ?_
  rw [hlocked]
  dsimp only [Prog.bind]
  refine tending_act ⟨rfl, rfl⟩ (fun _ => rfl) fun previous => ?_
  cases previous with
  | none => cases replacement <;> exact store_tends _ none
  | some l =>
    refine method_tends (e := .stop l) rfl rfl ⟨rfl, Or.inl ⟨rfl, rfl⟩⟩ (fun _ => rfl) ⟨rfl, rfl⟩
      fun _ => ?_
    cases replacement <;> exact store_tends _ (some l)

/-! ## The calls -/

/-- What a call returns: `kMonitorError` after an exception. -/
structure ModuleCall.Returns (core : CppCore) (c : ModuleCall) (g : Part) (code : Int) : Prop where
  ends : g.Ends
  code : ∀ attempts callback_function error_callback,
    c = .set attempts callback_function error_callback → g.failed = true →
      code = core.value .kMonitorError

/-- What follows, once the error handler is known. -/
theorem replacing_tends (core : CppCore) (chars : CharUpper) (attempts : Nat)
    (callback_function error_handler : Callback) :
    Follows tending (fun g' returned => ∀ code, returned = some code →
      g'.Ends ∧ (g'.failed = true → code = core.value .kMonitorError)) (do
        match ← listener.makeReplacement chars attempts callback_function with
        | none => return none
        | some (.error (replacement, what)) =>
          listener.reset replacement
          let code ← listener.failMsg core error_handler .kMonitorError what
          return some code
        | some (.ok replacement) =>
          let previous ← listener.install replacement
          listener.reset previous
          return some kSuccess) { stage := .making } := by
  refine follows_seq (makeReplacement_tends chars attempts callback_function)
    fun g' result hresult => ?_
  rcases result with _ | ⟨replacement, what⟩ | replacement
  · simp
  · have hg' : g' = { stage := .making, mine := replacement, failed := true } :=
      hresult _ rfl
    rw [hg']
    dsimp only
    cases replacement with
    | none =>
      refine tending_act ⟨rfl, Or.inl ⟨rfl, rfl⟩, rfl, rfl⟩ (fun _ => rfl) fun _ => ?_
      exact tending_act ⟨rfl, trivial⟩ (fun _ => rfl) fun _ _ hcode =>
        ⟨⟨⟨rfl, rfl⟩, rfl, Or.inl rfl, Or.inl rfl, by simp⟩, fun _ => (Option.some.inj hcode).symm⟩
    | some l =>
      refine follows_seq (destroy_replacement_tends l) fun g'' _ hg'' => ?_
      rw [hg'']
      refine tending_act ⟨rfl, Or.inr rfl, rfl, rfl⟩ (fun _ => rfl) fun _ => ?_
      exact tending_act ⟨rfl, trivial⟩ (fun _ => rfl) fun _ _ hcode =>
        ⟨⟨⟨rfl, rfl⟩, rfl, Or.inl rfl, Or.inr rfl, by simp⟩, fun _ => (Option.some.inj hcode).symm⟩
  · refine follows_seq (install_tends replacement (hresult _ rfl)) fun g'' previous hg'' => ?_
    rw [hg'']
    cases previous with
    | none => exact fun _ _ => ⟨⟨⟨rfl, rfl⟩, rfl, Or.inl rfl, Or.inl rfl, by simp⟩, by simp⟩
    | some l =>
      refine follows_seq (destroy_previous_tends l replacement) fun g' _ hends _ _ => ?_
      refine ⟨hends.1, fun hfailed => ?_⟩
      rw [hends.2] at hfailed
      cases hfailed

theorem serialSetEventCallback_tends (core : CppCore) (chars : CharUpper) (attempts : Nat)
    (callback_function error_callback : Callback) :
    Follows tending (fun g' returned => ∀ code, returned = some code →
        g'.Ends ∧ (g'.failed = true → code = core.value .kMonitorError))
      (serialSetEventCallback core chars attempts callback_function error_callback)
      { stage := .making } := by
  unfold serialSetEventCallback listener.effectiveErrorCallback
  split
  · exact replacing_tends core chars attempts callback_function error_callback
  · exact tending_act ⟨rfl, trivial⟩ (fun _ => rfl) fun loaded =>
      replacing_tends core chars attempts callback_function loaded

/-- Every call keeps to the protocol, and has what `Returns` says when it returns. -/
theorem ModuleCall.program_tends (core : CppCore) (chars : CharUpper) (c : ModuleCall) :
    Follows tending (fun g' returned => ∀ code, returned = some code → c.Returns core g' code)
      (c.program core chars) c.part := by
  cases c with
  | set attempts callback_function error_callback =>
    refine follows_mono (serialSetEventCallback_tends core chars attempts callback_function
      error_callback) fun g' returned hends code hcode => ?_
    obtain ⟨hends', hfailed⟩ := hends code hcode
    exact ⟨hends', fun _ _ _ _ => hfailed⟩
  | deviceNotification l action data =>
    exact follows_seq (deviceNotification_tends chars l action data) fun _ _ hends _ _ =>
      ⟨hends, nofun⟩
  | dispatch l turns =>
    refine tending_act ⟨rfl, trivial⟩ (fun _ => rfl) fun ports => ?_
    refine follows_seq (run_tends turns ports ⟨rfl, rfl, rfl, rfl, rfl⟩) fun g' rest hidle => ?_
    intro code hreturned
    cases rest with
    | none =>
      obtain ⟨hidle', hfound⟩ := hidle rfl
      exact ⟨hidle'.ends hfound, nofun⟩
    | some ports => cases hreturned

end Programs

end cpp_bindings_windows
