-- The dispatcher against a sequential fold: threads call the methods of one
-- listener state in every interleaving with the dispatcher, and what the
-- dispatcher tells is what the notifications tell one after the other.
import Mathlib.Data.List.Induction
import SerialBindings.Alternation
import SerialBindings.Threads

open programs

namespace cpp_bindings_windows

/-! ## The machine of one listener state -/

/-- A listener state with its mutex and its condition variable. `asleep` says that the dispatcher
sleeps in `wait` and nobody has notified it since. -/
structure Monitor where
  state : EventListenerState := {}
  holder : Option Nat := none
  asleep : Bool := false
  started : Bool := false

/-- The methods of `EventListenerState`. The dispatcher is followed for so many turns. -/
inductive MonitorCall
  | enqueue (notification : Notification)
  | reportQueueFailure
  | activate
  | stop
  | run (turns : Nat) (ports : PortMap)

def MonitorCall.program (l : ListenerId) : MonitorCall → Listening (Option PortMap)
  | .enqueue notification => do
    let _ ← listener.enqueue l notification
    return none
  | .reportQueueFailure => do
    listener.reportQueueFailure l
    return none
  | .activate => do
    listener.activate l
    return none
  | .stop => do
    listener.stop l
    return none
  | .run turns ports => listener.run l turns ports

namespace Monitor

/-- The monitor after a change of the state that notifies the dispatcher. -/
def notify (w : Monitor) (state : EventListenerState) : Monitor :=
  { w with state, asleep := false }

/-- `wait` gives the mutex back when it sleeps, and has it again when it wakes, which it may do
without a notification. -/
def perform (thread : Nat) (w : Monitor) :
    (action : ListenerAction) → ListenerAnswer action → Option Monitor
  | .lock _, _ => if w.holder = none then some { w with holder := some thread } else none
  | .unlock _, _ => if w.holder = some thread then some { w with holder := none } else none
  | .enqueue _ notification, thrown =>
    if thrown.isSome ∨ w.state.stopped_ then some w
    else some (w.notify (w.state.enqueue notification))
  | .reportQueueFailure _, _ => some (w.notify w.state.reportQueueFailure)
  | .activate _, _ => some (w.notify w.state.activate)
  | .stop _, _ => some (w.notify w.state.stop)
  | .check _, turn =>
    if w.state.check.1 = turn then
      some (if turn = .asleep then { w with holder := none, asleep := true }
        else { w with state := w.state.check.2 })
    else none
  | .wake _, _ =>
    if w.holder = none then some { w with holder := some thread, asleep := false } else none
  | _, _ => some w

end Monitor

/-- The calls of any threads on one listener state. One thread runs the dispatcher, once. -/
def monitor (l : ListenerId) : Machine Nat ListenerAction ListenerAnswer MonitorCall
    (Option PortMap) Monitor where
  body := MonitorCall.program l
  enter _ w
    | .run _ _ => if w.started then none else some { w with started := true }
    | _ => some w
  perform := Monitor.perform
  leave _ w
    | .run _ _, rest => if rest.isNone then some w else none
    | _, _ => some w

abbrev MonitorLabel := Label Nat ListenerAction ListenerAnswer MonitorCall (Option PortMap)

/-! ## What a history tells -/

/-- Whether `stop` was called, and the notifications that were accepted with their threads:
an `enqueue` that does not throw is accepted until the stop. -/
def acceptance : List MonitorLabel → Bool × List (Nat × Notification) :=
  List.foldl (fun (stopped, accepted) label => match label with
    | .did _ (.stop _) _ => (true, accepted)
    | .did t (.enqueue _ notification) none =>
      (stopped, if stopped then accepted else accepted ++ [(t, notification)])
    | _ => (stopped, accepted)) (false, [])

/-- The notifications in the order in which `enqueue` accepted them. -/
def accepted (ls : List MonitorLabel) : List (Nat × Notification) := (acceptance ls).2

/-- The notifications that the dispatcher took. -/
def taken : List MonitorLabel → List Notification :=
  List.filterMap fun label => match label with
    | .did _ (.check _) (.taken notification) => some notification
    | _ => none

/-- The actions of the delivery of one notification. -/
def ListenerAction.Delivers : ListenerAction → Bool
  | .portName _ => true
  | .callback .. => true
  | .callbackReturned _ => true
  | .reportError _ about _ => about.isSome
  | .reportReturned _ about => about.isSome
  | _ => false

/-- What the dispatcher did to deliver notifications: resolutions, callbacks and reports with
their outcomes. -/
def effects : List MonitorLabel → List Effect :=
  List.filterMap fun label => match label with
    | .did _ action answer => if action.Delivers then some ⟨action, answer⟩ else none
    | _ => none

/-! ## The sequential fold -/

/-- The notifications delivered one after the other. -/
def deliverAll (l : ListenerId) (ports : PortMap) : List Notification → Listening PortMap
  | [] => return ports
  | notification :: rest => do
    let ports ← listener.deliver l ports notification
    deliverAll l ports rest

/-- The delivery of the last taken notification has `q` left, after the fold over the others. -/
def Delivering (l : ListenerId) (ports : PortMap) (taken : List Notification)
    (effects : List Effect) (q : Listening PortMap) : Prop :=
  ∃ done notification tr tr' ports', taken = done ++ [notification] ∧ effects = tr ++ tr' ∧
    Traces (deliverAll l ports done) tr (.ret ports') ∧
    Traces (listener.deliver l ports' notification) tr' q

/-- The effects are those of the fold over the taken notifications, the last of which may be
still in delivery. -/
def Folds (l : ListenerId) (ports : PortMap) (taken : List Notification)
    (effects : List Effect) : Prop :=
  (∃ ports', Traces (deliverAll l ports taken) effects (.ret ports')) ∨
    ∃ q, Delivering l ports taken effects q

theorem deliverAll_snoc (l : ListenerId) (ports : PortMap) (done : List Notification)
    (notification : Notification) :
    deliverAll l ports (done ++ [notification]) =
      (deliverAll l ports done >>= fun ports' => listener.deliver l ports' notification) := by
  induction done generalizing ports with
  | nil =>
    show (listener.deliver l ports notification >>= fun ports' => Prog.ret ports') = _
    rw [Prog.bind_ret]
    rfl
  | cons first done ih =>
    show (listener.deliver l ports first >>= fun ports' =>
      deliverAll l ports' (done ++ [notification])) =
      ((listener.deliver l ports first >>= fun ports' => deliverAll l ports' done) >>= _)
    simp only [ih, Prog.bind_assoc]

/-- A delivery that is over belongs to the fold. -/
theorem Delivering.over {l : ListenerId} {ports ports' : PortMap} {taken : List Notification}
    {effects : List Effect} (h : Delivering l ports taken effects (.ret ports')) :
    Traces (deliverAll l ports taken) effects (.ret ports') := by
  obtain ⟨done, notification, tr, tr', ports1, rfl, rfl, hdone, hlast⟩ := h
  rw [deliverAll_snoc]
  exact traces_seq hdone hlast

/-! ## The queue -/

/-- The step takes a notification. -/
def TakesNotification (label : MonitorLabel) : Prop := taken [label] ≠ []

/-- The step is the section of `activate`. -/
def Activates : MonitorLabel → Prop
  | .did _ (.activate _) _ => True
  | _ => False

/-- The step is the section of `stop`. -/
def Stops : MonitorLabel → Prop
  | .did _ (.stop _) _ => True
  | _ => False

theorem taken_snoc (ls : List MonitorLabel) (label : MonitorLabel) :
    taken (ls ++ [label]) = taken ls ++ taken [label] := by
  unfold taken
  rw [List.filterMap_append]

theorem effects_snoc (ls : List MonitorLabel) (label : MonitorLabel) :
    effects (ls ++ [label]) = effects ls ++ effects [label] := by
  unfold effects
  rw [List.filterMap_append]

theorem acceptance_snoc (ls : List MonitorLabel) (label : MonitorLabel) :
    acceptance (ls ++ [label]) = match label with
      | .did _ (.stop _) _ => (true, accepted ls)
      | .did t (.enqueue _ notification) none => ((acceptance ls).1,
          if (acceptance ls).1 then accepted ls else accepted ls ++ [(t, notification)])
      | _ => acceptance ls := by
  unfold accepted acceptance
  rw [List.foldl_append]
  rfl

/-- The accepted notifications are those that were taken and those that wait. -/
structure QueueInv (ls : List MonitorLabel) (w : Monitor) : Prop where
  order : (accepted ls).map Prod.snd = taken ls ++ w.state.pending_
  stopped : (acceptance ls).1 = w.state.stopped_
  active : w.state.active_ = true → ∃ x ∈ ls, Activates x
  after_activate : ∀ l1 x l2, ls = l1 ++ x :: l2 → TakesNotification x → ∃ y ∈ l1, Activates y
  before_stop : ∀ l1 x l2, ls = l1 ++ x :: l2 → Stops x →
    w.state.stopped_ = true ∧ ∀ y ∈ l2, ¬ TakesNotification y

/-- The rule for a step: what it does to the queue and to the two flags. -/
theorem QueueInv.snoc {ls : List MonitorLabel} {w w' : Monitor} {x : MonitorLabel}
    (h : QueueInv ls w)
    (horder : (accepted (ls ++ [x])).map Prod.snd = taken (ls ++ [x]) ++ w'.state.pending_)
    (hstopped : (acceptance (ls ++ [x])).1 = w'.state.stopped_)
    (hactive : w'.state.active_ = true → w.state.active_ = true ∨ Activates x)
    (htakes : TakesNotification x → w.state.active_ = true ∧ w.state.stopped_ = false)
    (hstops : Stops x → w'.state.stopped_ = true)
    (hkept : w.state.stopped_ = true → w'.state.stopped_ = true) : QueueInv (ls ++ [x]) w' where
  order := horder
  stopped := hstopped
  active ha := by
    rcases hactive ha with ha | hx
    · obtain ⟨y, hy, hactivates⟩ := h.active ha
      exact ⟨y, List.mem_append_left _ hy, hactivates⟩
    · exact ⟨x, List.mem_append_right _ (List.mem_singleton_self x), hx⟩
  after_activate l1 y l2 hl hy := by
    rcases snoc_split hl with ⟨-, rfl, rfl⟩ | ⟨l3, -, rfl⟩
    · exact h.active (htakes hy).1
    · exact h.after_activate l1 y l3 rfl hy
  before_stop l1 y l2 hl hy := by
    rcases snoc_split hl with ⟨rfl, rfl, rfl⟩ | ⟨l3, rfl, rfl⟩
    · exact ⟨hstops hy, nofun⟩
    · obtain ⟨hs, hnone⟩ := h.before_stop l1 y l3 rfl hy
      refine ⟨hkept hs, fun z hz => ?_⟩
      rw [List.mem_append, List.mem_singleton] at hz
      rcases hz with hz | rfl
      · exact hnone z hz
      · intro htakes'
        rw [(htakes htakes').2] at hs
        cases hs

/-- A step that does not touch the queue, nor the two flags. -/
theorem QueueInv.same {ls : List MonitorLabel} {w w' : Monitor} {x : MonitorLabel}
    (h : QueueInv ls w) (hacceptance : acceptance (ls ++ [x]) = acceptance ls)
    (htaken : taken [x] = []) (hstops : ¬ Stops x)
    (hpending : w'.state.pending_ = w.state.pending_)
    (hstopped : w'.state.stopped_ = w.state.stopped_)
    (hactive : w'.state.active_ = w.state.active_) : QueueInv (ls ++ [x]) w' := by
  refine h.snoc ?_ ?_ (fun ha => Or.inl (hactive ▸ ha)) (fun ht => absurd htaken ht)
    (fun hs => absurd hs hstops) (fun hs => hstopped ▸ hs)
  · rw [taken_snoc, htaken, List.append_nil, hpending, accepted, hacceptance]
    exact h.order
  · rw [hacceptance, hstopped]
    exact h.stopped

theorem QueueInv.did {ls : List MonitorLabel} {w w' : Monitor} {t : Nat} {e : ListenerAction}
    {r : ListenerAnswer e} (h : QueueInv ls w) (hw : w.perform t e r = some w') :
    QueueInv (ls ++ [.did t e r]) w' := by
  cases e with
  | enqueue m notification =>
    cases r with
    | some what =>
      cases hw
      exact h.same (acceptance_snoc _ _) rfl id rfl rfl rfl
    | none =>
      have hstep := acceptance_snoc ls (.did t (.enqueue m notification) none)
      dsimp only at hstep
      rw [h.stopped] at hstep
      cases hs : w.state.stopped_ with
      | true =>
        simp only [Monitor.perform, hs, or_true, if_true] at hw
        cases hw
        rw [hs, if_pos rfl, ← hs, ← h.stopped] at hstep
        exact h.same hstep rfl id rfl rfl rfl
      | false =>
        simp only [Monitor.perform, hs, Option.isSome_none, Bool.false_eq_true, or_self,
          if_false] at hw
        cases hw
        rw [hs, if_neg (by decide)] at hstep
        have hpending : (w.state.enqueue notification).pending_ =
            w.state.pending_ ++ [notification] := by
          unfold EventListenerState.enqueue
          rw [if_neg (by rw [hs]; decide)]
        have hflags : (w.state.enqueue notification).stopped_ = false ∧
            (w.state.enqueue notification).active_ = w.state.active_ := by
          unfold EventListenerState.enqueue
          rw [if_neg (by rw [hs]; decide)]
          exact ⟨hs, rfl⟩
        refine h.snoc ?_ ?_ (fun ha => Or.inl (hflags.2 ▸ ha)) (fun ht => absurd rfl ht) nofun
          (fun hs' => by rw [hs] at hs'; cases hs')
        · rw [accepted, hstep, List.map_append, h.order, taken_snoc]
          show _ = taken ls ++ [] ++ (w.state.enqueue notification).pending_
          rw [hpending, List.append_nil, List.append_assoc]
          rfl
        · rw [hstep]
          exact hflags.1.symm
  | stop m =>
    cases hw
    have hstep := acceptance_snoc ls (.did t (.stop m) ())
    refine h.snoc ?_ ?_ (fun ha => Or.inl ha) (fun ht => absurd rfl ht) (fun _ => rfl)
      (fun _ => rfl)
    · rw [accepted, hstep, taken_snoc]
      show (accepted ls).map Prod.snd = taken ls ++ [] ++ w.state.pending_
      rw [List.append_nil, h.order]
    · rw [hstep]
      rfl
  | activate m =>
    cases hw
    have hstep := acceptance_snoc ls (.did t (.activate m) ())
    refine h.snoc ?_ ?_ (fun _ => Or.inr trivial) (fun ht => absurd rfl ht) nofun (fun hs => hs)
    · rw [accepted, hstep, taken_snoc]
      show (accepted ls).map Prod.snd = taken ls ++ [] ++ w.state.pending_
      rw [List.append_nil, h.order]
    · rw [hstep]
      exact h.stopped
  | check m =>
    simp only [Monitor.perform] at hw
    split at hw
    · rename_i hcheck
      cases hw
      have hstep := acceptance_snoc ls (.did t (.check m) r)
      dsimp only at hstep
      by_cases htaken : ∃ notification, r = .taken notification
      · obtain ⟨notification, rfl⟩ := htaken
        obtain ⟨hstopped, hactive, hpending, hstopped', hactive'⟩ :=
          EventListenerState.check_taken hcheck
        rw [if_neg nofun]
        refine h.snoc ?_ ?_ (fun _ => Or.inl hactive) (fun _ => ⟨hactive, hstopped⟩) nofun
          (fun hs => by rw [hstopped] at hs; cases hs)
        · rw [accepted, hstep, taken_snoc, List.append_assoc]
          show (accepted ls).map Prod.snd = taken ls ++ (notification :: w.state.check.2.pending_)
          rw [h.order, hpending]
        · rw [hstep, h.stopped, hstopped, hstopped']
      · have hnot : ∀ notification, r ≠ .taken notification :=
          fun notification heq => htaken ⟨notification, heq⟩
        have hmissed : ∀ notification, w.state.check.1 ≠ .taken notification := by
          rw [hcheck]
          exact hnot
        have hother := EventListenerState.check_other hmissed
        have hnone : taken [(.did t (.check m) r : MonitorLabel)] = [] := by
          cases r with
          | taken notification => exact absurd rfl (hnot notification)
          | _ => rfl
        refine h.same hstep hnone id ?_ ?_ ?_
        · split
          · rfl
          · exact hother.1
        · split
          · rfl
          · exact hother.2.1
        · split
          · rfl
          · exact hother.2.2
    · cases hw
  | lock m | unlock m | wake m =>
    simp only [Monitor.perform] at hw
    split at hw
    · cases hw
      exact h.same (acceptance_snoc _ _) rfl id rfl rfl rfl
    · cases hw
  | _ =>
    cases hw
    exact h.same (acceptance_snoc _ _) rfl id rfl rfl rfl

theorem QueueInv.enter {ls : List MonitorLabel} {w w' : Monitor} (h : QueueInv ls w) (t : Nat)
    (c : MonitorCall) (hstate : w'.state = w.state) : QueueInv (ls ++ [.enter t c]) w' :=
  h.same (acceptance_snoc _ _) rfl id (by rw [hstate]) (by rw [hstate]) (by rw [hstate])

theorem QueueInv.leave {ls : List MonitorLabel} {w : Monitor} (h : QueueInv ls w) (t : Nat)
    (c : MonitorCall) (a : Option PortMap) : QueueInv (ls ++ [.leave t c a]) w :=
  h.same (acceptance_snoc _ _) rfl id rfl rfl rfl

/-! ## The protocol of the dispatcher -/

/-- What a call has taken, and its effects so far. -/
structure Dispatch where
  call : MonitorCall
  taken : List Notification := []
  effects : List Effect := []

namespace Dispatch

/-- The next effect is the next one of the delivery, and the next notification is taken after
it. -/
def allows (l : ListenerId) (g : Dispatch) : ListenerAction → Prop
  | .check _ => ∃ turns ports ports', g.call = .run turns ports ∧
      Traces (deliverAll l ports g.taken) g.effects (.ret ports')
  | e => e.Delivers = true → ∃ turns ports k, g.call = .run turns ports ∧
      Delivering l ports g.taken g.effects (.act e k)

def next (g : Dispatch) (e : ListenerAction) (r : ListenerAnswer e) : Option Dispatch :=
  some { g with
    taken := g.taken ++ (match e, r with
      | .check _, .taken notification => [notification]
      | _, _ => [])
    effects := g.effects ++ if e.Delivers then [⟨e, r⟩] else [] }

end Dispatch

def dispatching (l : ListenerId) : Protocol ListenerAction ListenerAnswer Dispatch where
  allows := Dispatch.allows l
  next := Dispatch.next

/-- The actions that neither take a notification nor belong to a delivery. -/
def ListenerAction.Idles : ListenerAction → Prop
  | .check _ => False
  | e => e.Delivers = false

theorem dispatching_idles (l : ListenerId) {e : ListenerAction} (h : e.Idles) (g : Dispatch)
    (r : ListenerAnswer e) : (dispatching l).allows g e ∧ (dispatching l).next g e r = some g := by
  have hdelivers : e.Delivers = false := by
    cases e with
    | check => exact h.elim
    | _ => exact h
  constructor
  · cases e with
    | check => exact h.elim
    | _ => exact fun hd => by rw [hdelivers] at hd; cases hd
  · show Dispatch.next g e r = some g
    unfold Dispatch.next
    rw [hdelivers]
    cases e with
    | check => exact h.elim
    | _ => simp only [List.append_nil, Bool.false_eq_true, if_false]

theorem dispatching_skip {l : ListenerId} {α : Type} {Q : Dispatch → α → Prop}
    {e : ListenerAction} {k : ListenerAnswer e → Listening α} {g : Dispatch} (he : e.Idles)
    (h : ∀ r, Follows (dispatching l) Q (k r) g) : Follows (dispatching l) Q (.act e k) g := by
  refine ⟨?_, fun r g' hn => ?_⟩
  · cases e with
    | check => exact he.elim
    | _ => exact fun hd => by rw [show ListenerAction.Delivers _ = false from he] at hd; cases hd
  · rw [(dispatching_idles l he g r).2] at hn
    cases hn
    exact h r

variable {l : ListenerId} {g : Dispatch} {turns : Nat} {ports : PortMap}

/-- One more effect of a delivery. -/
theorem Delivering.snoc {taken : List Notification} {effects : List Effect} {e : ListenerAction}
    {k : ListenerAnswer e → Listening PortMap} (r : ListenerAnswer e)
    (h : Delivering l ports taken effects (.act e k)) :
    Delivering l ports taken (effects ++ [⟨e, r⟩]) (k r) := by
  obtain ⟨done, notification, tr, tr', ports', htaken, rfl, hdone, hlast⟩ := h
  refine ⟨done, notification, tr, tr' ++ [⟨e, r⟩], ports', htaken, ?_, hdone, .snoc hlast⟩
  rw [List.append_assoc]

/-- What is left of a delivery follows the protocol, and ends with the delivery over. -/
theorem delivery_dispatches {p : Listening PortMap} (hcall : g.call = .run turns ports)
    (h : Delivering l ports g.taken g.effects p)
    (hp : Within (fun e => e.Delivers = true) (fun _ => True) p) :
    Follows (dispatching l) (fun g' ports' => g'.call = g.call ∧
      Delivering l ports g'.taken g'.effects (.ret ports')) p g := by
  induction p generalizing g with
  | ret ports' => exact ⟨rfl, h⟩
  | act e k ih =>
    obtain ⟨hdelivers, hrest⟩ := hp
    refine ⟨?_, fun r g' hn => ?_⟩
    · cases e with
      | check => cases hdelivers
      | _ => exact fun _ => ⟨turns, ports, k, hcall, h⟩
    · have hg' : g' = { g with effects := g.effects ++ [⟨e, r⟩] } := by
        cases e with
        | check => cases hdelivers
        | _ =>
          simp only [dispatching, Dispatch.next, List.append_nil, hdelivers, if_true,
            Option.some.injEq] at hn
          exact hn.symm
      rw [hg']
      exact ih r (g := { g with effects := g.effects ++ [⟨e, r⟩] }) hcall (h.snoc r) (hrest r)

theorem invokeCallback_within {ports' : PortMap} (l : ListenerId) (path : WString)
    (event : PortEvent) (port : String) :
    Within (fun e => e.Delivers = true) (fun _ => True)
      (listener.invokeCallback l path event port >>= fun _ => .ret ports') := by
  refine ⟨rfl, fun _ => ⟨rfl, fun thrown => ?_⟩⟩
  cases thrown with
  | none => trivial
  | some what => exact ⟨rfl, fun _ => ⟨rfl, fun _ => trivial⟩⟩

theorem deliver_within (l : ListenerId) (ports : PortMap) (notification : Notification) :
    Within (fun e => e.Delivers = true) (fun _ => True)
      (listener.deliver l ports notification) := by
  unfold listener.deliver
  cases notification.event with
  | kAttached =>
    cases ports.lookup notification.path with
    | some port => trivial
    | none =>
      refine ⟨rfl, fun resolved => ?_⟩
      cases resolved with
      | error error => exact ⟨rfl, fun _ => ⟨rfl, fun _ => trivial⟩⟩
      | ok port => exact invokeCallback_within l _ _ _
  | kDetached =>
    cases ports.lookup notification.path with
    | none => trivial
    | some port => exact invokeCallback_within l _ _ _

/-- The wait takes at most one notification. -/
theorem wait_dispatches {ports' : PortMap} (n : Nat) (hcall : g.call = .run turns ports)
    (h : Traces (deliverAll l ports g.taken) g.effects (.ret ports')) :
    Follows (dispatching l) (fun g' turn => g' = { g with taken := g.taken ++ match turn with
      | .taken notification => [notification]
      | _ => [] }) (listener.wait l n) g := by
  induction n with
  | zero => simp only [listener.wait, Prog.pure_eq, follows_ret, List.append_nil]
  | succ n ih =>
    refine ⟨⟨turns, ports, ports', hcall, h⟩, fun turn g' hn => ?_⟩
    simp only [dispatching, Dispatch.next, ListenerAction.Delivers, Bool.false_eq_true, if_false,
      List.append_nil, Option.some.injEq] at hn
    subst hn
    cases turn with
    | asleep =>
      simp only [List.append_nil]
      exact dispatching_skip rfl fun _ => ih
    | _ => exact rfl

/-- The dispatcher delivers what it takes, one notification after the other. -/
theorem run_dispatches {ports' : PortMap} (n : Nat) (hcall : g.call = .run turns ports)
    (h : Traces (deliverAll l ports g.taken) g.effects (.ret ports')) :
    Follows (dispatching l) (fun _ _ => True) (listener.run l n ports') g := by
  induction n generalizing g ports' with
  | zero => trivial
  | succ n ih =>
    refine dispatching_skip rfl fun _ => ?_
    dsimp only [Prog.bind]
    refine follows_seq (wait_dispatches n hcall h) fun g' turn hg' => ?_
    cases turn with
    | asleep => trivial
    | stopped => exact dispatching_skip rfl fun _ => trivial
    | queueFailed =>
      rw [List.append_nil] at hg'
      subst hg'
      exact dispatching_skip rfl fun _ => dispatching_skip rfl fun _ =>
        dispatching_skip rfl fun _ =>
        ih hcall h
    | taken notification =>
      subst hg'
      refine dispatching_skip rfl fun _ => ?_
      dsimp only [Prog.bind]
      have hstart : Delivering l ports (g.taken ++ [notification]) g.effects
          (listener.deliver l ports' notification) :=
        ⟨g.taken, notification, g.effects, [], ports', rfl, (List.append_nil _).symm, h, .nil⟩
      refine follows_seq (delivery_dispatches hcall hstart (deliver_within l ports' notification))
        fun g'' ports'' hover => ?_
      exact ih (hover.1.trans hcall) hover.2.over

/-- A method of the state takes nothing and delivers nothing. -/
theorem method_dispatches {α : Type} {e : ListenerAction} (he : e.Idles)
    {f : ListenerAnswer e → Listening α} {Q : Dispatch → α → Prop}
    (hf : ∀ r, Follows (dispatching l) Q (f r) g) :
    Follows (dispatching l) Q (listener.guarded (.mutex_ l) (listener.perform e) >>= f) g :=
  dispatching_skip rfl fun _ => dispatching_skip he fun r => dispatching_skip rfl fun _ => hf r

theorem program_dispatches (l : ListenerId) (c : MonitorCall) :
    Follows (dispatching l) (fun _ _ => True) (c.program l) { call := c } := by
  cases c with
  | enqueue notification =>
    exact method_dispatches (e := .enqueue l notification) rfl fun _ => trivial
  | reportQueueFailure =>
    exact method_dispatches (e := .reportQueueFailure l) rfl fun _ => trivial
  | activate => exact method_dispatches (e := .activate l) rfl fun _ => trivial
  | stop => exact method_dispatches (e := .stop l) rfl fun _ => trivial
  | run turns ports => exact run_dispatches turns rfl .nil

/-! ## The invariant -/

structure DispatchInv (l : ListenerId) (ls : List MonitorLabel)
    (gs : Nat → Option (MonitorCall × Dispatch)) (w : Monitor) : Prop where
  queue : QueueInv ls w
  call : ∀ t c g, gs t = some (c, g) → g.call = c
  current : ∀ t turns ports g, gs t = some (.run turns ports, g) →
    .enter t (.run turns ports) ∈ ls ∧ g.taken = taken ls ∧ g.effects = effects ls
  started : ∀ t turns ports, .enter t (.run turns ports) ∈ ls → w.started = true
  one : ∀ t turns ports t' turns' ports', .enter t (.run turns ports) ∈ ls →
    .enter t' (.run turns' ports') ∈ ls → t = t' ∧ turns = turns' ∧ ports = ports'
  unstarted : w.started = false → taken ls = [] ∧ effects ls = []
  folds : ∀ t turns ports, .enter t (.run turns ports) ∈ ls → Folds l ports (taken ls) (effects ls)

variable {ls : List MonitorLabel} {gs : Nat → Option (MonitorCall × Dispatch)} {w w' : Monitor}
  {t : Nat} {c : MonitorCall} {e : ListenerAction} {r : ListenerAnswer e}

theorem perform_started (hw : w.perform t e r = some w') : w'.started = w.started := by
  cases e with
  | lock | unlock | wake | enqueue =>
    simp only [Monitor.perform] at hw
    split at hw <;> cases hw <;> rfl
  | check =>
    simp only [Monitor.perform] at hw
    split at hw
    · cases hw
      split <;> rfl
    · cases hw
  | _ => cases hw; rfl

/-- What the protocol notes of an action is what the history tells about it. -/
theorem dispatching_next (l : ListenerId) (g : Dispatch) (t : Nat) (e : ListenerAction)
    (r : ListenerAnswer e) : (dispatching l).next g e r = some { g with
      taken := g.taken ++ taken [.did t e r]
      effects := g.effects ++ effects [.did t e r] } := by
  cases e with
  | check m => cases r <;> rfl
  | reportError m about message => cases about <;> rfl
  | reportReturned m about => cases about <;> rfl
  | _ => rfl

theorem idles_tells_nothing (h : e.Idles) (t : Nat) (r : ListenerAnswer e) :
    taken [.did t e r] = [] ∧ effects [.did t e r] = [] := by
  cases e with
  | check => exact h.elim
  | reportError m about message => cases about <;> first | exact ⟨rfl, rfl⟩ | cases h
  | reportReturned m about => cases about <;> first | exact ⟨rfl, rfl⟩ | cases h
  | portName | callback | callbackReturned => cases h
  | _ => exact ⟨rfl, rfl⟩

/-- An action that tells something is one of the dispatcher, and the fold goes on with it. -/
theorem folds_goes_on (hidles : ¬ e.Idles) (t : Nat) (r : ListenerAnswer e)
    (hallows : (dispatching l).allows g e) :
    ∃ turns ports, g.call = .run turns ports ∧
      Folds l ports (g.taken ++ taken [.did t e r]) (g.effects ++ effects [.did t e r]) := by
  by_cases hdelivers : e.Delivers = true
  · have hcurrent : ∃ turns ports k, g.call = .run turns ports ∧
        Delivering l ports g.taken g.effects (.act e k) := by
      cases e with
      | check => cases hdelivers
      | _ => exact hallows hdelivers
    obtain ⟨turns, ports, k, hcall, hdelivering⟩ := hcurrent
    have htaken : taken [.did t e r] = [] := by
      cases e with
      | check => cases hdelivers
      | _ => rfl
    have heffects : effects [.did t e r] = [⟨e, r⟩] := by
      unfold effects
      rw [List.filterMap_cons]
      simp only [hdelivers, if_true, List.filterMap_nil]
    refine ⟨turns, ports, hcall, Or.inr ⟨k r, ?_⟩⟩
    rw [htaken, heffects, List.append_nil]
    exact hdelivering.snoc r
  · cases e with
    | check m =>
      obtain ⟨turns, ports, ports', hcall, htraces⟩ := hallows
      refine ⟨turns, ports, hcall, ?_⟩
      cases r with
      | taken notification =>
        refine Or.inr ⟨listener.deliver l ports' notification, g.taken, notification, g.effects, [],
          ports', rfl, rfl, htraces, .nil⟩
      | _ =>
        left
        refine ⟨ports', ?_⟩
        show Traces (deliverAll l ports (g.taken ++ [])) (g.effects ++ []) _
        rw [List.append_nil, List.append_nil]
        exact htraces
    | _ => exact absurd (Bool.eq_false_iff.mpr hdelivers) hidles

theorem DispatchInv.did (h : DispatchInv l ls gs w) (hg : gs t = some (c, g))
    (hallows : (dispatching l).allows g e) (hw : w.perform t e r = some w') :
    ∃ g', (dispatching l).next g e r = some g' ∧
      DispatchInv l (ls ++ [.did t e r]) (Function.update gs t (some (c, g'))) w' := by
  have hcall := h.call t c g hg
  have hmem : ∀ u turns ports, .enter u (.run turns ports) ∈ ls ++ [.did t e r] →
      .enter u (.run turns ports) ∈ ls := by
    intro u turns ports hu
    rw [List.mem_append, List.mem_singleton] at hu
    exact hu.resolve_right nofun
  refine ⟨_, dispatching_next l g t e r, ?_⟩
  -- a step that tells something is one of the only dispatcher
  have htells : ¬ e.Idles → ∃ turns ports, c = .run turns ports ∧
      Folds l ports (taken ls ++ taken [.did t e r]) (effects ls ++ effects [.did t e r]) := by
    intro hidles
    obtain ⟨turns, ports, hrun, hfolds⟩ := folds_goes_on hidles t r hallows
    rw [hcall] at hrun
    subst hrun
    obtain ⟨-, htaken, heffects⟩ := h.current t turns ports g hg
    rw [htaken, heffects] at hfolds
    exact ⟨turns, ports, rfl, hfolds⟩
  refine
    { queue := h.queue.did hw
      call := fun u c' g0 hg0 => ?_
      current := fun u turns ports g0 hg0 => ?_
      started := fun u turns ports hu => ?_
      one := fun u turns ports u' turns' ports' hu hu' =>
        h.one u turns ports u' turns' ports' (hmem _ _ _ hu) (hmem _ _ _ hu')
      unstarted := fun hs => ?_
      folds := fun u turns ports hu => ?_ }
  · refine forall_inside (P := fun _ c' g0 => g0.call = c') (fun u c' g0 _ hg0 => ?_) hcall u c' g0
      hg0
    exact h.call u c' g0 hg0
  · rw [taken_snoc, effects_snoc]
    by_cases hut : u = t
    · subst hut
      rw [Function.update_self] at hg0
      cases hg0
      obtain ⟨hentered, htaken, heffects⟩ := h.current u turns ports g hg
      rw [htaken, heffects]
      exact ⟨List.mem_append_left _ hentered, rfl, rfl⟩
    · rw [Function.update_of_ne hut] at hg0
      obtain ⟨hentered, htaken, heffects⟩ := h.current u turns ports g0 hg0
      have hidles : e.Idles := by
        by_contra hnot
        obtain ⟨turns', ports', rfl, -⟩ := htells hnot
        obtain ⟨hentered', -, -⟩ := h.current t turns' ports' g hg
        exact hut (h.one u turns ports t turns' ports' hentered hentered').1
      obtain ⟨hnone, hnone'⟩ := idles_tells_nothing hidles t r
      rw [hnone, hnone', List.append_nil, List.append_nil]
      exact ⟨List.mem_append_left _ hentered, htaken, heffects⟩
  · rw [perform_started hw]
    exact h.started u turns ports (hmem u turns ports hu)
  · rw [perform_started hw] at hs
    have hidles : e.Idles := by
      by_contra hnot
      obtain ⟨turns', ports', rfl, -⟩ := htells hnot
      obtain ⟨hentered', -, -⟩ := h.current t turns' ports' g hg
      rw [h.started t turns' ports' hentered'] at hs
      cases hs
    obtain ⟨hnone, hnone'⟩ := idles_tells_nothing hidles t r
    rw [taken_snoc, effects_snoc, hnone, hnone', List.append_nil, List.append_nil]
    exact h.unstarted hs
  · rw [taken_snoc, effects_snoc]
    by_cases hidles : e.Idles
    · obtain ⟨hnone, hnone'⟩ := idles_tells_nothing hidles t r
      rw [hnone, hnone', List.append_nil, List.append_nil]
      exact h.folds u turns ports (hmem u turns ports hu)
    · obtain ⟨turns', ports', rfl, hfolds⟩ := htells hidles
      obtain ⟨hentered', -, -⟩ := h.current t turns' ports' g hg
      obtain ⟨-, -, rfl⟩ := h.one u turns ports t turns' ports' (hmem u turns ports hu) hentered'
      exact hfolds

theorem DispatchInv.enter (h : DispatchInv l ls gs w) (hg : gs t = none)
    (hw : (monitor l).enter t w c = some w') :
    DispatchInv l (ls ++ [.enter t c]) (Function.update gs t (some (c, { call := c }))) w' := by
  have hstate : w'.state = w.state ∧ (w.started = true → w'.started = true) := by
    cases c with
    | run turns ports =>
      simp only [monitor] at hw
      split at hw
      · cases hw
      · cases hw
        exact ⟨rfl, fun _ => rfl⟩
    | _ => cases hw; exact ⟨rfl, id⟩
  have hfresh : ∀ turns ports, c = .run turns ports → w.started = false ∧ w'.started = true := by
    rintro turns ports rfl
    simp only [monitor] at hw
    split at hw
    · cases hw
    · rename_i hs
      cases hw
      exact ⟨Bool.eq_false_iff.mpr hs, rfl⟩
  have htaken : taken (ls ++ [.enter t c]) = taken ls := by
    rw [taken_snoc]
    exact List.append_nil _
  have heffects : effects (ls ++ [.enter t c]) = effects ls := by
    rw [effects_snoc]
    exact List.append_nil _
  have hmem : ∀ u turns ports, .enter u (.run turns ports) ∈ ls ++ [.enter t c] →
      .enter u (.run turns ports) ∈ ls ∨ (u = t ∧ c = .run turns ports) := by
    intro u turns ports hu
    rw [List.mem_append, List.mem_singleton] at hu
    refine hu.imp_right fun heq => ?_
    cases heq
    exact ⟨rfl, rfl⟩
  refine
    { queue := h.queue.enter t c hstate.1
      call := fun u c' g0 hg0 => ?_
      current := fun u turns ports g0 hg0 => ?_
      started := fun u turns ports hu => ?_
      one := fun u turns ports u' turns' ports' hu hu' => ?_
      unstarted := fun hs => ?_
      folds := fun u turns ports hu => ?_ }
  · refine forall_inside (P := fun _ c' g0 => g0.call = c') (fun u c' g0 _ hg0 => ?_) rfl u c' g0
      hg0
    exact h.call u c' g0 hg0
  · rw [htaken, heffects]
    by_cases hut : u = t
    · subst hut
      rw [Function.update_self] at hg0
      cases hg0
      obtain ⟨hnone, hnone'⟩ := h.unstarted (hfresh turns ports rfl).1
      exact ⟨List.mem_append_right _ (List.mem_singleton_self _), hnone.symm, hnone'.symm⟩
    · rw [Function.update_of_ne hut] at hg0
      obtain ⟨hentered, hcurrent⟩ := h.current u turns ports g0 hg0
      exact ⟨List.mem_append_left _ hentered, hcurrent⟩
  · rcases hmem u turns ports hu with hu | ⟨-, hc⟩
    · exact hstate.2 (h.started u turns ports hu)
    · exact (hfresh turns ports hc).2
  · rcases hmem u turns ports hu with hu | ⟨rfl, hc⟩
    · rcases hmem u' turns' ports' hu' with hu' | ⟨-, hc'⟩
      · exact h.one u turns ports u' turns' ports' hu hu'
      · have hs := h.started u turns ports hu
        rw [(hfresh turns' ports' hc').1] at hs
        cases hs
    · rcases hmem u' turns' ports' hu' with hu' | ⟨rfl, hc'⟩
      · have hs := h.started u' turns' ports' hu'
        rw [(hfresh turns ports hc).1] at hs
        cases hs
      · rw [hc] at hc'
        cases hc'
        exact ⟨rfl, rfl, rfl⟩
  · rw [htaken, heffects]
    refine h.unstarted ?_
    rw [Bool.eq_false_iff]
    intro hs'
    rw [hstate.2 hs'] at hs
    cases hs
  · rw [htaken, heffects]
    rcases hmem u turns ports hu with hu | ⟨-, hc⟩
    · exact h.folds u turns ports hu
    · obtain ⟨hnone, hnone'⟩ := h.unstarted (hfresh turns ports hc).1
      rw [hnone, hnone']
      exact Or.inl ⟨ports, .nil⟩

theorem DispatchInv.leave {a : Option PortMap} (h : DispatchInv l ls gs w) :
    DispatchInv l (ls ++ [.leave t c a]) (Function.update gs t none) w := by
  have htaken : taken (ls ++ [.leave t c a]) = taken ls := by
    rw [taken_snoc]
    exact List.append_nil _
  have heffects : effects (ls ++ [.leave t c a]) = effects ls := by
    rw [effects_snoc]
    exact List.append_nil _
  have hmem : ∀ u turns ports, .enter u (.run turns ports) ∈ ls ++ [.leave t c a] →
      .enter u (.run turns ports) ∈ ls := by
    intro u turns ports hu
    rw [List.mem_append, List.mem_singleton] at hu
    exact hu.resolve_right nofun
  have hold : ∀ u x, Function.update gs t none u = some x → gs u = some x := by
    intro u x hu
    exact (stays_inside hu).2
  refine
    { queue := h.queue.leave t c a
      call := fun u c' g0 hg0 => h.call u c' g0 (hold u _ hg0)
      current := fun u turns ports g0 hg0 => ?_
      started := fun u turns ports hu => h.started u turns ports (hmem u turns ports hu)
      one := fun u turns ports u' turns' ports' hu hu' =>
        h.one u turns ports u' turns' ports' (hmem _ _ _ hu) (hmem _ _ _ hu')
      unstarted := fun hs => ?_
      folds := fun u turns ports hu => ?_ }
  · rw [htaken, heffects]
    obtain ⟨hentered, hcurrent⟩ := h.current u turns ports g0 (hold u _ hg0)
    exact ⟨List.mem_append_left _ hentered, hcurrent⟩
  · rw [htaken, heffects]
    exact h.unstarted hs
  · rw [htaken, heffects]
    exact h.folds u turns ports (hmem u turns ports hu)

def dispatchOutline (l : ListenerId) : Outline (monitor l) always {} (dispatching l) where
  start c := { call := c }
  post _ _ _ := True
  inv := DispatchInv l
  follows := program_dispatches l
  init :=
    { queue :=
        { order := rfl
          stopped := rfl
          active := fun ha => by cases ha
          after_activate := fun l1 x l2 hl => by cases l1 <;> cases hl
          before_stop := fun l1 x l2 hl => by cases l1 <;> cases hl }
      call := nofun
      current := nofun
      started := nofun
      one := nofun
      unstarted := fun _ => ⟨rfl, rfl⟩
      folds := nofun }
  enter h hg hw _ := h.enter hg hw
  did h hg hallows hw _ := h.did hg hallows hw
  leave {ls gs s t c g a s'} h hg _ hw _ := by
    have hsame : s' = s := by
      cases c with
      | run turns ports =>
        simp only [monitor] at hw
        split at hw
        · cases hw
          rfl
        · cases hw
      | _ => cases hw; rfl
    rw [hsame]
    exact h.leave

/-! ## The refinement -/

/-- The notifications that the thread enqueued, in its order. -/
def enqueued (t : Nat) : List MonitorLabel → List Notification :=
  List.filterMap fun label => match label with
    | .did t' (.enqueue _ notification) none => if t' = t then some notification else none
    | _ => none

theorem enqueued_snoc (t : Nat) (ls : List MonitorLabel) (label : MonitorLabel) :
    enqueued t (ls ++ [label]) = enqueued t ls ++ enqueued t [label] := by
  unfold enqueued
  rw [List.filterMap_append]

/-- Of each thread, the first notifications are accepted: all of them until the stop. -/
theorem accepted_of_thread (t : Nat) (ls : List MonitorLabel) :
    ∃ refused, enqueued t ls = ((accepted ls).filter (·.1 = t)).map Prod.snd ++ refused ∧
      ((acceptance ls).1 = false → refused = []) := by
  induction ls using List.reverseRecOn with
  | nil => exact ⟨[], rfl, fun _ => rfl⟩
  | append_singleton ls label ih =>
    obtain ⟨refused, heq, hnone⟩ := ih
    -- a step that is neither a stop nor an accepted notification
    have hsame : acceptance (ls ++ [label]) = acceptance ls → enqueued t [label] = [] →
        ∃ refused, enqueued t (ls ++ [label]) =
          ((accepted (ls ++ [label])).filter (·.1 = t)).map Prod.snd ++ refused ∧
          ((acceptance (ls ++ [label])).1 = false → refused = []) := by
      intro hacceptance henqueued
      rw [enqueued_snoc, henqueued, List.append_nil, accepted, hacceptance]
      exact ⟨refused, heq, hnone⟩
    have hstep := acceptance_snoc ls label
    cases label with
    | enter | leave => exact hsame hstep rfl
    | did t' e r =>
      cases e with
      | stop m =>
        rw [enqueued_snoc, accepted, hstep]
        exact ⟨refused, by rw [heq]; exact List.append_nil _, fun hs => by cases hs⟩
      | enqueue m notification =>
        cases r with
        | some what => exact hsame hstep rfl
        | none =>
          dsimp only at hstep
          cases hs : (acceptance ls).1 with
          | true =>
            rw [hs, if_pos rfl, ← hs] at hstep
            rw [enqueued_snoc, accepted, hstep, heq]
            refine ⟨refused ++ enqueued t [.did t' (.enqueue m notification) none], ?_, ?_⟩
            · exact List.append_assoc _ _ _
            · intro hs'
              rw [hs'] at hs
              cases hs
          | false =>
            rw [hs, if_neg (by decide)] at hstep
            rw [enqueued_snoc, accepted, hstep, heq, hnone hs, List.append_nil]
            refine ⟨[], ?_, fun _ => rfl⟩
            rw [List.filter_append, List.map_append, List.append_nil]
            congr 1
            by_cases ht : t' = t <;> simp [enqueued, ht]
      | _ => exact hsame hstep rfl

/-- What the dispatcher did in the steps `ls`, told without its interleaving. -/
structure FoldsInOrder (l : ListenerId) (ls : List MonitorLabel) (w : Monitor) : Prop where
  /-- Taken, and then waiting, is what was accepted: nothing lost, doubled or moved. -/
  order : (accepted ls).map Prod.snd = taken ls ++ w.state.pending_
  /-- What is taken of each thread comes in its order, with none left out before it. -/
  producers : ∀ t, (((accepted ls).take (taken ls).length).filter (·.1 = t)).map Prod.snd <+:
    enqueued t ls
  after_activate : ∀ l1 x l2, ls = l1 ++ x :: l2 → TakesNotification x → ∃ y ∈ l1, Activates y
  before_stop : ∀ l1 x l2, ls = l1 ++ x :: l2 → Stops x → ∀ y ∈ l2, ¬ TakesNotification y
  /-- The effects are those of the sequential fold. -/
  folds : ∀ t turns ports, .enter t (.run turns ports) ∈ ls →
    Folds l ports (taken ls) (effects ls)

/-- In every interleaving of any number of threads with the dispatcher, what the dispatcher does
is the sequential fold over what it takes. A call from inside a callback is one of another
thread here: the dispatcher holds no mutex then. -/
theorem dispatcher_folds_in_order (l : ListenerId) {ls : List MonitorLabel}
    {s : Sys Nat ListenerAction ListenerAnswer MonitorCall (Option PortMap) Monitor}
    (h : Runs (monitor l) always {} ls s) : FoldsInOrder l ls s.shared := by
  obtain ⟨gs, hinv, -⟩ := (dispatchOutline l).runs h
  refine
    { order := hinv.queue.order
      producers := fun t => ?_
      after_activate := hinv.queue.after_activate
      before_stop := fun l1 x l2 hl hx => (hinv.queue.before_stop l1 x l2 hl hx).2
      folds := hinv.folds }
  obtain ⟨refused, heq, -⟩ := accepted_of_thread t ls
  rw [heq]
  have htaken := List.IsPrefix.filter (·.1 = t)
    ( List.take_prefix (taken ls).length (accepted ls))
  exact (htaken.map Prod.snd).trans (List.prefix_append _ _)

/-- What the dispatcher finds is what its state has, and nothing throws. -/
def monitorAnswer (_ : Nat) (w : Monitor) : (action : ListenerAction) → ListenerAnswer action
  | .check _ => w.state.check.1
  | action => quietAnswer action

/-- Two producers and a dispatcher. It is activated with two notifications in the queue, tells
the first, and is stopped before it takes the second. -/
def twoProducers : List (Move Nat ListenerAction ListenerAnswer MonitorCall Monitor) :=
  [.enter 0 (.run 3 ∅), .act 0 monitorAnswer, .act 0 monitorAnswer,
    .enter 1 (.enqueue ⟨.kAttached, [97]⟩), .act 1 monitorAnswer, .act 1 monitorAnswer,
    .enter 2 (.enqueue ⟨.kAttached, [98]⟩), .act 1 monitorAnswer, .act 2 monitorAnswer,
    .act 2 monitorAnswer, .act 2 monitorAnswer,
    .enter 3 .activate, .act 3 monitorAnswer, .act 3 monitorAnswer, .act 3 monitorAnswer,
    .act 0 monitorAnswer, .act 0 monitorAnswer, .act 0 monitorAnswer, .act 0 monitorAnswer,
    .act 0 monitorAnswer, .enter 4 .stop, .act 4 monitorAnswer, .act 4 monitorAnswer,
    .act 4 monitorAnswer, .act 0 monitorAnswer, .act 0 monitorAnswer, .act 0 monitorAnswer,
    .act 0 monitorAnswer, .leave 0]

theorem two_producers_are_folded :
    ∃ ls s, Runs (monitor 0) always {} ls s ∧ taken ls = [⟨.kAttached, [97]⟩] ∧
      invocations [97] (effects ls) = [(.kAttached, "COM3")] ∧
      s.shared.state.pending_ = [⟨.kAttached, [98]⟩] ∧ FoldsInOrder 0 ls s.shared := by
  obtain ⟨ls, s, hr, hx⟩ := Sys.moves_exists (monitor 0) always {} twoProducers
    (fun ls s => (taken ls, invocations [97] (effects ls), s.shared.state.pending_))
    (x := ([⟨.kAttached, [97]⟩], [(.kAttached, "COM3")], [⟨.kAttached, [98]⟩])) rfl
  simp only [Prod.mk.injEq] at hx
  exact ⟨ls, s, hr, hx.1, hx.2.1, hx.2.2, dispatcher_folds_in_order 0 hr⟩

end cpp_bindings_windows
