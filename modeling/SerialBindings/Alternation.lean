-- The events of one interface: the callbacks about a path alternate between
-- attached and detached, and a port leaves under the name that it came with,
-- whatever `resolve_port` and the callback do.
import SerialBindings.PortEvents

open programs

namespace cpp_bindings_windows

/-- One action of the listener with its answer. -/
abbrev Effect := Σ action, ListenerAnswer action

/-- The invocations of the callback about the path in a trace, with the names that they carry. -/
def invocations (path : WString) : List Effect → List (PortEvent × String) :=
  List.filterMap fun effect => match effect with
    | ⟨.callback _ path' event port, _⟩ => if path' = path then some (event, port) else none
    | _ => none

/-- The events alternate. They begin with `kDetached` under the name `port` after `some port`,
and with `kAttached` after none. Every detached port has the name of the attached port before. -/
def Alternates : Option String → List (PortEvent × String) → Prop
  | _, [] => True
  | none, (event, port) :: rest => event = .kAttached ∧ Alternates (some port) rest
  | some port, (event, port') :: rest => event = .kDetached ∧ port' = port ∧ Alternates none rest

/-! ## The protocol of the callbacks -/

/-- A callback may tell only what is not told yet. The state is what was told so far, for each
path. -/
def alternation : Protocol ListenerAction ListenerAnswer Known where
  allows told
    | .callback _ path .kAttached _ => told path = none
    | .callback _ path .kDetached port => told path = some port
    | _ => True
  next told
    | .callback _ path .kAttached port, _ => some (Function.update told path (some port))
    | .callback _ path .kDetached _, _ => some (Function.update told path none)
    | _, _ => some told

/-- The actions that are no invocation of the callback. -/
def ListenerAction.Untold : ListenerAction → Prop
  | .callback .. => False
  | _ => True

theorem alternation_ignores {e : ListenerAction} (h : e.Untold) : alternation.Ignores e := by
  intro told
  cases e with
  | callback => exact h.elim
  | _ => exact ⟨trivial, fun _ _ hn => by cases hn; rfl⟩

theorem alternation_skip {α : Type} {Q : Known → α → Prop} {e : ListenerAction}
    {k : ListenerAnswer e → Listening α} {told : Known} (he : e.Untold)
    (h : ∀ r, Follows alternation Q (k r) told) : Follows alternation Q (.act e k) told := by
  obtain ⟨hallows, hnext⟩ := alternation_ignores he told
  refine ⟨hallows, fun r told' hn => ?_⟩
  rw [hnext r told' hn]
  exact h r

/-- The rule for an invocation: after it, the event is told. -/
theorem invokeCallback_follows {α : Type} {Q : Known → α → Prop} {l : ListenerId}
    {path : WString} {event : PortEvent} {port : String} {told told' : Known}
    {f : Unit → Listening α}
    (hallows : alternation.allows told (.callback l path event port))
    (hnext : alternation.next told (.callback l path event port) () = some told')
    (h : Follows alternation Q (f ()) told') :
    Follows alternation Q (listener.invokeCallback l path event port >>= f) told := by
  refine ⟨hallows, fun _ told1 hn => ?_⟩
  rw [hnext] at hn
  cases hn
  refine alternation_skip trivial fun thrown => ?_
  cases thrown with
  | none => exact h
  | some what => exact alternation_skip trivial fun _ => alternation_skip trivial fun _ => h

/-- What is told is what the map of the dispatcher has, after every notification. -/
theorem deliver_alternates (l : ListenerId) (ports : PortMap) (notification : Notification) :
    Follows alternation (fun told ports' => told = ports'.known)
      (listener.deliver l ports notification) ports.known := by
  unfold listener.deliver
  cases notification.event with
  | kAttached =>
    cases hfound : ports.lookup notification.path with
    | some port => exact rfl
    | none =>
      refine alternation_skip trivial fun resolved => ?_
      cases resolved with
      | error error =>
        exact alternation_skip trivial fun _ => alternation_skip trivial fun _ => rfl
      | ok port =>
        refine invokeCallback_follows hfound rfl ?_
        show Function.update ports.known _ _ = (ports.emplace _ _).known
        rw [PortMap.emplace_of_none port hfound]
        exact (PortMap.known_insert ports _ port).symm
  | kDetached =>
    cases hfound : ports.lookup notification.path with
    | none => exact rfl
    | some port => exact invokeCallback_follows hfound rfl (PortMap.known_erase ports _).symm

theorem wait_within (l : ListenerId) (turns : Nat) :
    Within ListenerAction.Untold (fun _ => True) (listener.wait l turns) := by
  induction turns with
  | zero => trivial
  | succ turns ih =>
    refine ⟨trivial, fun turn => ?_⟩
    cases turn with
    | asleep => exact ⟨trivial, fun _ => ih⟩
    | _ => trivial

theorem run_alternates (l : ListenerId) (turns : Nat) (ports : PortMap) :
    Follows alternation (fun _ _ => True) (listener.run l turns ports) ports.known := by
  induction turns generalizing ports with
  | zero => trivial
  | succ turns ih =>
    refine alternation_skip trivial fun _ => ?_
    dsimp only [Prog.bind]
    refine follows_within_seq (wait_within l turns) (fun _ he => alternation_ignores he)
      fun turn _ => ?_
    cases turn with
    | asleep => trivial
    | stopped => exact alternation_skip trivial fun _ => trivial
    | queueFailed =>
      exact alternation_skip trivial fun _ => alternation_skip trivial fun _ =>
        alternation_skip trivial fun _ => ih ports
    | taken notification =>
      refine alternation_skip trivial fun _ => ?_
      dsimp only [Prog.bind]
      refine follows_seq (deliver_alternates l ports notification) fun told ports' h => ?_
      rw [h]
      exact ih ports'

/-! ## The traces -/

theorem invocations_snoc (path : WString) (tr : List Effect) (e : Effect) :
    invocations path (tr ++ [e]) = invocations path tr ++ invocations path [e] := by
  unfold invocations
  rw [List.filterMap_append]

theorem invocations_callback (path path' : WString) (l : ListenerId) (event : PortEvent)
    (port : String) :
    invocations path [⟨.callback l path' event port, ()⟩] =
      if path' = path then [(event, port)] else [] := by
  unfold invocations
  rw [List.filterMap_cons]
  split <;> simp_all

/-- What is told in a trace goes on as the events of each path go on. -/
def Told (ports : PortMap) (tr : List Effect) (told : Known) : Prop :=
  ∀ path rest, Alternates (told path) rest →
    Alternates (ports.lookup path) (invocations path tr ++ rest)

/-- The rule for one more callback: it goes on from `told` to what is told after it. -/
theorem Told.callback {ports : PortMap} {told : Known} {tr : List Effect} {l : ListenerId}
    {path : WString}
    {event : PortEvent} {port : String} {after : Option String} (h : Told ports tr told)
    (hevent : ∀ rest, Alternates after rest → Alternates (told path) ((event, port) :: rest)) :
    Told ports (tr ++ [⟨.callback l path event port, ()⟩]) (Function.update told path after) := by
  intro path' rest hrest
  rw [invocations_snoc, invocations_callback, List.append_assoc]
  apply h
  by_cases hpath : path = path'
  · subst hpath
    rw [Function.update_self] at hrest
    rw [if_pos rfl]
    exact hevent rest hrest
  · rw [Function.update_of_ne (Ne.symm hpath)] at hrest
    rw [if_neg hpath]
    exact hrest

theorem Told.snoc {ports : PortMap} {told : Known} {tr : List Effect} {e : ListenerAction}
    (r : ListenerAnswer e) (h : Told ports tr told) (hallows : alternation.allows told e) :
    ∃ told', alternation.next told e r = some told' ∧ Told ports (tr ++ [⟨e, r⟩]) told' := by
  by_cases he : e.Untold
  · refine ⟨told, by cases e <;> first | exact he.elim | rfl, fun path rest hrest => ?_⟩
    have hnone : invocations path [⟨e, r⟩] = [] := by cases e <;> first | exact he.elim | rfl
    rw [invocations_snoc, hnone, List.append_nil]
    exact h path rest hrest
  cases e with
  | callback l path event port =>
    cases event with
    | kAttached =>
      have htold : told path = none := hallows
      refine ⟨_, rfl, h.callback fun rest hrest => ?_⟩
      rw [htold]
      exact ⟨rfl, hrest⟩
    | kDetached =>
      have htold : told path = some port := hallows
      refine ⟨_, rfl, h.callback fun rest hrest => ?_⟩
      rw [htold]
      exact ⟨rfl, rfl, hrest⟩
  | _ => exact absurd trivial he

/-- A notification whose resolution throws tells nothing and leaves the map as it was. -/
theorem deliver_thrown {l : ListenerId} {ports ports' : PortMap} {notification : Notification}
    {tr : List Effect} {path : WString} {error : PortError}
    (h : Traces (listener.deliver l ports notification) tr (.ret ports'))
    (hthrown : ⟨.portName path, .error error⟩ ∈ tr) :
    ports' = ports ∧ ∀ path', invocations path' tr = [] := by
  -- without a resolution nothing can throw
  have hsilent : ∀ {p : Listening PortMap} {tr : List Effect} {q},
      Within (fun e => ∀ path, e ≠ .portName path) (fun _ => True) p → Traces p tr q →
        ⟨.portName path, .error error⟩ ∉ tr := by
    intro p tr q hp htr hm
    exact (traces_within hp htr).1 _ hm path rfl
  have hinvoke : ∀ (event : PortEvent) (port : String) (ports1 : PortMap),
      Within (fun e => ∀ path, e ≠ .portName path) (fun _ => True)
        (listener.invokeCallback l notification.path event port >>= fun _ => .ret ports1) := by
    intro event port ports1
    refine ⟨nofun, fun _ => ⟨nofun, fun thrown => ?_⟩⟩
    cases thrown with
    | none => trivial
    | some what => exact ⟨nofun, fun _ => ⟨nofun, fun _ => trivial⟩⟩
  unfold listener.deliver at h
  cases hevent : notification.event with
  | kAttached =>
    cases hfound : ports.lookup notification.path with
    | some port =>
      rw [hevent, hfound] at h
      rw [(traces_ret h).1] at hthrown
      cases hthrown
    | none =>
      rw [hevent, hfound] at h
      rcases traces_act h with ⟨-, hq⟩ | ⟨resolved, tr1, rfl, h1⟩
      · cases hq
      cases resolved with
      | ok port =>
        rcases List.mem_cons.mp hthrown with hm | hm
        · cases hm
        · exact absurd hm (hsilent (hinvoke _ _ _) h1)
      | error error' =>
        rcases traces_act h1 with ⟨-, hq⟩ | ⟨_, tr2, rfl, h2⟩
        · cases hq
        rcases traces_act h2 with ⟨-, hq⟩ | ⟨_, tr3, rfl, h3⟩
        · cases hq
        obtain ⟨rfl, hq⟩ := traces_ret h3
        cases hq
        exact ⟨rfl, fun _ => rfl⟩
  | kDetached =>
    cases hfound : ports.lookup notification.path with
    | none =>
      rw [hevent, hfound] at h
      rw [(traces_ret h).1] at hthrown
      cases hthrown
    | some port =>
      rw [hevent, hfound] at h
      exact absurd hthrown (hsilent (hinvoke _ _ _) h)

/-- In every trace of the dispatcher, whatever it takes and whatever `resolve_port` and the
callback do, the events of each path alternate from what the map had, and the names match. A
notification whose resolution throws tells nothing and changes nothing. -/
theorem events_alternate_and_names_match (l : ListenerId) (turns : Nat) (ports : PortMap) :
    (∀ tr q, Traces (listener.run l turns ports) tr q →
      ∀ path, Alternates (ports.lookup path) (invocations path tr)) ∧
    ∀ known ports' notification tr path error,
      Traces (listener.deliver l known notification) tr (.ret ports') →
      ⟨.portName path, .error error⟩ ∈ tr →
        ports' = known ∧ ∀ path', invocations path' tr = [] := by
  refine ⟨fun tr q h path => ?_, fun known ports' notification tr path error => deliver_thrown⟩
  have hstart : Told ports [] ports.known := fun _ _ hrest => hrest
  obtain ⟨told, htold, -⟩ :=
    follows_traces (fun r hi hallows => hi.snoc r hallows) (run_alternates l turns ports) hstart h
  have hnil : Alternates (told path) [] := by cases told path <;> trivial
  have halternates := htold path [] hnil
  rw [List.append_nil] at halternates
  exact halternates

/-- The answers for a device that comes, leaves, and is told to come once more when its port
cannot be named, before the listener is stopped. -/
def cameAndLeft (tr : List Effect) : (action : ListenerAction) → ListenerAnswer action
  | .check _ => match tr.countP (fun effect => effect.1 matches .check _) with
    | 0 => .taken ⟨.kAttached, [97]⟩
    | 1 => .taken ⟨.kDetached, [97]⟩
    | 2 => .taken ⟨.kAttached, [97]⟩
    | _ => .stopped
  | .portName _ =>
    if tr.countP (fun effect => effect.1 matches .check _) = 1 then .ok "COM3"
    else .error ⟨some 2, "The system cannot find the file specified."⟩
  | action => quietAnswer action

/-- The device comes and leaves as `COM3`, and the arrival without a name is not told. -/
theorem a_device_comes_and_leaves :
    ∃ tr, Traces (listener.run 0 5 ∅) tr (.ret none) ∧
      invocations [97] tr = [(.kAttached, "COM3"), (.kDetached, "COM3")] ∧
      Alternates none (invocations [97] tr) := by
  have htrace := trace_traces cameAndLeft (Traces.nil (p := listener.run 0 5 ∅))
  refine ⟨_, htrace, rfl, ?_⟩
  exact (events_alternate_and_names_match 0 5 ∅).1 _ _ htrace [97]

end cpp_bindings_windows
