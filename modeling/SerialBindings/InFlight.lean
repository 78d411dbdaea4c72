-- The requests in flight. The `OVERLAPPED` of a request lives in the frame of
-- its chunk, from the `startPendingIo` that registers it to its
-- `finishPendingIo`, and the slot of a handle state refers to such a request.
import SerialBindings.Aborts

open programs

namespace cpp_bindings_windows

/-! ## The frame of a chunk -/

/-- What the actions of a call tell about the `OVERLAPPED` of its chunk: its event, the slot
in which it was registered last, and the handle on which its request is still outstanding. -/
structure Frame where
  hEvent : Option HANDLE := none
  registered : Option (StateRef × Operation) := none
  outstanding : Option HANDLE := none
  canceled : Bool := false

namespace Frame

/-- The frame after one action. A request is outstanding from a start that answers
`ERROR_IO_PENDING` on, until its event is signalled or it was canceled and waited for. -/
def after (f : Frame) : (action : Action) → Answer action → Frame
  | .createEvent, event => { f with hEvent := event }
  | .startPendingIo state operation request, (start, _) =>
    if start.aborted then f
    else { f with
      registered := some (state, operation)
      outstanding :=
        if start.completed = false ∧ start.error = ERROR_IO_PENDING then some request.handle
        else none
      canceled := false }
  | .finishPendingIo _ _, _ => { f with registered := none }
  | .waitForSingleObject event _, wait_result =>
    if f.hEvent = some event ∧ wait_result = WAIT_OBJECT_0 then
      { f with outstanding := none }
    else f
  | .cancelIoEx handle, _ =>
    if f.outstanding = some handle then { f with canceled := true } else f
  | .getOverlappedResult handle wait, _ =>
    if wait = true ∧ f.canceled = true ∧ f.outstanding = some handle then
      { f with outstanding := none }
    else f
  | _, _ => f

/-- The frame after the actions of a trace. -/
def afterAll (f : Frame) (tr : List (Σ e, Answer e)) : Frame :=
  tr.foldl (fun f x => f.after x.1 x.2) f

/-- No request of the frame is registered or outstanding. -/
def Settled (f : Frame) : Prop := f.registered = none ∧ f.outstanding = none

end Frame

/-- The frame of each thread after the steps. -/
def frames : List ApiLabel → ThreadId → Frame :=
  List.foldl (fun f l => match l with
    | .enter t _ => Function.update f t {}
    | .did t e r => Function.update f t ((f t).after e r)
    | .leave _ _ _ => f) (fun _ => {})

theorem frames_snoc (ls : List ApiLabel) (l : ApiLabel) :
    frames (ls ++ [l]) = match l with
      | .enter t _ => Function.update (frames ls) t {}
      | .did t e r => Function.update (frames ls) t ((frames ls t).after e r)
      | .leave _ _ _ => frames ls := by
  unfold frames
  rw [List.foldl_append]
  rfl

@[simp] theorem frames_enter (ls : List ApiLabel) (t : ThreadId) (c : ApiCall) :
    frames (ls ++ [.enter t c]) = Function.update (frames ls) t {} := frames_snoc _ _

@[simp] theorem frames_did (ls : List ApiLabel) (t : ThreadId) (e : Action) (r : Answer e) :
    frames (ls ++ [.did t e r]) = Function.update (frames ls) t ((frames ls t).after e r) :=
  frames_snoc _ _

@[simp] theorem frames_leave (ls : List ApiLabel) (t : ThreadId) (c : ApiCall) (a : Int) :
    frames (ls ++ [.leave t c a]) = frames ls := frames_snoc _ _

/-- The thread has registered a request of `o` on the handle state, and has not finished it. -/
def InFlight (ls : List ApiLabel) (t : ThreadId) (state : StateRef) (o : Operation) : Prop :=
  (frames ls t).registered = some (state, o)

/-- The operating system still works on the request of the thread. -/
def Outstanding (ls : List ApiLabel) (t : ThreadId) : Prop := (frames ls t).outstanding ≠ none

/-- The thread that registered a request of `o` on the handle state last. -/
def lastRegistered : List ApiLabel → StateRef → Operation → Option ThreadId :=
  List.foldl (fun f l => match l with
    | .did t (.startPendingIo state o _) (start, _) =>
      if start.aborted then f
      else Function.update f state (Function.update (f state) o (some t))
    | _ => f) (fun _ _ => none)

theorem lastRegistered_snoc (ls : List ApiLabel) (l : ApiLabel) :
    lastRegistered (ls ++ [l]) = match l with
      | .did t (.startPendingIo state o _) (start, _) =>
        if start.aborted then lastRegistered ls
        else Function.update (lastRegistered ls) state
          (Function.update (lastRegistered ls state) o (some t))
      | _ => lastRegistered ls := by
  unfold lastRegistered
  rw [List.foldl_append]
  rfl

@[simp] theorem lastRegistered_enter (ls : List ApiLabel) (t : ThreadId) (c : ApiCall) :
    lastRegistered (ls ++ [.enter t c]) = lastRegistered ls := lastRegistered_snoc _ _

@[simp] theorem lastRegistered_leave (ls : List ApiLabel) (t : ThreadId) (c : ApiCall) (a : Int) :
    lastRegistered (ls ++ [.leave t c a]) = lastRegistered ls := lastRegistered_snoc _ _

theorem lastRegistered_did (ls : List ApiLabel) (t : ThreadId) {e : Action} (r : Answer e)
    (he : ∀ state o request, e ≠ .startPendingIo state o request) :
    lastRegistered (ls ++ [.did t e r]) = lastRegistered ls := by
  rw [lastRegistered_snoc]
  split
  · rename_i h
    cases h
    exact absurd rfl (he _ _ _)
  · rfl

/-- A start that registers its request is the last one on its slot. -/
theorem lastRegistered_start (ls : List ApiLabel) (t : ThreadId) (state state' : StateRef)
    (o o' : Operation) (request : Request) (start : PendingIoStart) (transferred : DWORD)
    (h : start.aborted = false) :
    lastRegistered (ls ++ [.did t (.startPendingIo state o request) (start, transferred)])
        state' o' =
      if state' = state ∧ o = o' then some t else lastRegistered ls state' o' := by
  rw [lastRegistered_snoc]
  dsimp only
  rw [h, if_neg Bool.false_ne_true]
  by_cases hs : state' = state
  · subst hs
    rw [Function.update_self]
    by_cases ho : o = o'
    · subst ho
      rw [Function.update_self, if_pos ⟨rfl, rfl⟩]
    · rw [Function.update_of_ne (Ne.symm ho), if_neg fun hx => ho hx.2]
  · rw [Function.update_of_ne hs, if_neg fun hx => hs hx.1]

/-! ## The protocol of one call -/

/-- A call with the handle state that it got and the frame of its chunk. -/
structure Flight where
  call : ApiCall
  state : Option StateRef := none
  frame : Frame := {}

namespace Flight

/-- A request is registered on the state of the call only, and its event goes when the request
is settled. -/
def allows (g : Flight) : Action → Prop
  | .startPendingIo state operation _ =>
    g.call.transfers = some operation ∧ g.state = some state ∧ g.frame.Settled
  | .finishPendingIo state operation =>
    g.frame.registered = some (state, operation) ∧ g.frame.outstanding = none
  | .closeHandle _ => g.frame.Settled
  | _ => True

def next (g : Flight) : (action : Action) → Answer action → Option Flight
  | .ensureHandleState _, state => some { g with state := some state }
  | e, r => some { g with frame := g.frame.after e r }

end Flight

def flying : Protocol Action Answer Flight := ⟨Flight.allows, Flight.next⟩

/-- The actions that neither register, finish nor wait for a request. -/
def Action.Aside (e : Action) : Prop :=
  e.Quiet ∨ e.Counts ∨ match e with
    | .removeHandleState _ => True
    | .storeAbort _ _ => True
    | .cancelPending _ _ _ => True
    | .createFile _ => True
    | _ => False

theorem Frame.after_aside {e : Action} (h : e.Aside) (f : Frame) (r : Answer e) :
    f.after e r = f := by
  cases e <;> first | rfl | exact (h.elim id (Or.elim · id id)).elim

theorem flying_ignores {e : Action} (h : e.Aside) : flying.Ignores e := by
  intro g
  refine ⟨?_, fun r g' hn => ?_⟩
  · cases e <;> first | trivial | exact (h.elim id (Or.elim · id id)).elim
  · have hnext : flying.next g e r = some { g with frame := g.frame.after e r } := by
      cases e <;> first | rfl | exact (h.elim id (Or.elim · id id)).elim
    rw [hnext, Frame.after_aside h] at hn
    cases hn
    rfl

theorem flying_quiet (e : Action) (h : e.Quiet) : flying.Ignores e := flying_ignores (Or.inl h)

/-- The rule for one action that has nothing to do with requests. -/
theorem flying_skip {α : Type} {Q : Flight → α → Prop} {e : Action} {k : Answer e → Api α}
    {g : Flight} (he : e.Aside) (h : ∀ r, Follows flying Q (k r) g) :
    Follows flying Q (.act e k) g := by
  refine ⟨(flying_ignores he g).1, fun r g' hn => ?_⟩
  rw [(flying_ignores he g).2 r g' hn]
  exact h r

/-! ## One request -/

/-- The call transfers `o` on the handle state, and its frame is `f`. -/
def Flight.On (o : Operation) (state : StateRef) (f : Frame) (g : Flight) : Prop :=
  g.call.transfers = some o ∧ g.state = some state ∧ g.frame = f

/-- Between two requests: the call transfers `o` on the handle state, and its frame is settled. -/
def Flight.Landed (o : Operation) (state : StateRef) (g : Flight) : Prop :=
  g.call.transfers = some o ∧ g.state = some state ∧ g.frame.Settled

/-- A request that is not outstanding may be finished, and is settled then. -/
theorem finish_flies {α : Type} {Q : Flight → α → Prop} {o : Operation} {state : StateRef}
    {k : Bool → Api α} {f : Frame} {g : Flight} (h : g.On o state f)
    (hreg : f.registered = some (state, o)) (hout : f.outstanding = none)
    (hk : ∀ aborted g', g'.Landed o state → Follows flying Q (k aborted) g') :
    Follows flying Q (.act (.finishPendingIo state o) k) g := by
  obtain ⟨ho, hs, rfl⟩ := h
  refine ⟨⟨hreg, hout⟩, fun aborted g' hn => ?_⟩
  cases hn
  exact hk aborted _ ⟨ho, hs, rfl, hout⟩

/-- A request that was canceled and waited for may be finished. -/
theorem canceled_flies {o : Operation} {state : StateRef} {handle : HANDLE}
    {k : Bool → Api IoResult} {f : Frame} {g : Flight} (h : g.On o state f)
    (hreg : f.registered = some (state, o)) (hout : f.outstanding = some handle)
    (hk : ∀ aborted g', g'.Landed o state →
      Follows flying (fun g' _ => g'.Landed o state) (k aborted) g') :
    Follows flying (fun g' _ => g'.Landed o state) (.act (.cancelIoEx handle) fun _ =>
      .act (.getOverlappedResult handle true) fun _ => .act (.finishPendingIo state o) k) g := by
  obtain ⟨ho, hs, rfl⟩ := h
  refine ⟨trivial, fun _ g1 h1 => ?_⟩
  simp only [flying, Flight.next, Frame.after, hout, if_true] at h1
  cases h1
  refine ⟨trivial, fun result g2 h2 => ?_⟩
  simp only [flying, Flight.next, Frame.after, and_self, if_true] at h2
  cases h2
  exact finish_flies ⟨ho, hs, rfl⟩ hreg rfl hk

theorem waitForPendingIo_flies (core : CppCore) (context : HandleContext) (o : Operation)
    (event : HANDLE) (timeout_ms : Int) {f : Frame} {g : Flight} (h : g.On o context.state f)
    (hreg : f.registered = some (context.state, o)) (hout : f.outstanding = some context.handle)
    (hevent : f.hEvent = some event) :
    Follows flying (fun g' _ => g'.Landed o context.state)
      (waitForPendingIo core context o event timeout_ms) g := by
  unfold waitForPendingIo
  simp only [Prog.perform_bind, Prog.pure_eq]
  refine ⟨trivial, fun wait_result g1 h1 => ?_⟩
  dsimp only
  by_cases hobject : wait_result = WAIT_OBJECT_0
  · -- the event is signalled
    have htimeout : WAIT_OBJECT_0 ≠ WAIT_TIMEOUT := by decide
    rw [if_neg (hobject ▸ htimeout), if_neg (not_not.mpr hobject)]
    obtain ⟨ho, hs, rfl⟩ := h
    simp only [flying, Flight.next, Frame.after, hevent, hobject, and_self, if_true] at h1
    cases h1
    refine ⟨trivial, fun result g2 h2 => ?_⟩
    simp only [flying, Flight.next, Frame.after, Bool.false_eq_true, false_and, if_false] at h2
    cases h2
    refine finish_flies ⟨ho, hs, rfl⟩ hreg rfl fun aborted g' h' => ?_
    -- every branch returns, with the same frame
    repeat' split
    all_goals exact h'
  · have hg1 : g1 = g := by
      obtain ⟨ho, hs, rfl⟩ := h
      simp only [flying, Flight.next, Frame.after, hobject, and_false, if_false] at h1
      cases h1
      rfl
    subst hg1
    split
    · refine canceled_flies h hreg hout fun aborted g' h' => ?_
      split <;> exact h'
    · refine flying_skip (Or.inl trivial) fun error => ?_
      exact canceled_flies h hreg hout fun aborted g' h' => h'

theorem requestChunk_flies (core : CppCore) (context : HandleContext) (o : Operation)
    (offset size timeout_ms : Int) (event : HANDLE) {g : Flight} (h : g.Landed o context.state)
    (hevent : g.frame.hEvent = some event) :
    Follows flying (fun g' _ => g'.Landed o context.state)
      (requestChunk core context o offset size timeout_ms event) g := by
  unfold requestChunk
  simp only [Prog.perform_bind, Prog.pure_eq]
  refine ⟨h, ?_⟩
  rintro ⟨⟨completed, error, aborted⟩, transferred⟩ g1 h1
  obtain ⟨ho, hs, hsettled⟩ := h
  cases aborted
  · simp only [flying, Flight.next, Frame.after, Bool.false_eq_true, if_false] at h1
    cases h1
    simp only [Bool.false_eq_true, if_false]
    cases completed
    · by_cases hpending : error = ERROR_IO_PENDING
      · rw [if_neg Bool.false_ne_true, if_neg (not_not.mpr hpending)]
        refine waitForPendingIo_flies core context o event timeout_ms ⟨ho, hs, rfl⟩ rfl ?_ hevent
        exact if_pos ⟨rfl, hpending⟩
      · rw [if_neg Bool.false_ne_true, if_pos hpending]
        refine finish_flies ⟨ho, hs, rfl⟩ rfl ?_ fun aborted g' h' => h'
        exact if_neg fun hx => hpending hx.2
    · rw [if_pos rfl]
      refine finish_flies ⟨ho, hs, rfl⟩ rfl ?_ fun aborted g' h' => h'
      simp
  · simp only [flying, Flight.next, Frame.after, if_true] at h1
    cases h1
    exact ⟨ho, hs, hsettled⟩

theorem transferChunk_flies (core : CppCore) (context : HandleContext) (o : Operation)
    (offset size timeout_ms : Int) {g : Flight} (h : g.Landed o context.state) :
    Follows flying (fun g' _ => g'.Landed o context.state)
      (transferChunk core o context offset size timeout_ms) g := by
  unfold transferChunk
  simp only [Prog.perform_bind, Prog.pure_eq]
  refine ⟨trivial, fun event g1 h1 => ?_⟩
  cases h1
  cases event with
  | none => exact flying_skip (Or.inl trivial) fun error => h
  | some event =>
    refine follows_seq (requestChunk_flies core context o offset size timeout_ms event h rfl)
      fun g2 result h2 => ⟨h2.2.2, fun closed g3 h3 => ?_⟩
    cases h3
    exact h2

/-! ## The calls -/

def flown (core : CppCore) (o : Operation) : TransferOutline core flying o where
  entry _ g := g.call.transfers = some o ∧ g.frame.Settled
  ready context _ g := g.Landed o context.state
  counted context _ _ g := g.Landed o context.state
  result g _ := g.frame.Settled
  silent := silent_of_quiet flying_quiet
  refuses _ h := h.2
  acquires := by
    intro handle g h _
    refine ⟨trivial, fun state g' hn => ?_⟩
    cases hn
    exact ⟨h.1, rfl, h.2⟩
  stops h := h.2.2
  fails _ h := h.2.2
  chunk := by
    intro context total size timeout_ms g h _ _
    refine follows_mono (transferChunk_flies core context o total size timeout_ms h)
      fun g' result h' => ?_
    cases result.outcome with
    | kTimedOut => exact h'.2.2
    | kAborted => exact h'.2.2
    | kError => exact fun _ _ => h'.2.2
    | kCompleted => exact ⟨fun _ => h'.2.2, fun _ => h'⟩
  notes := by
    intro context total n g h _
    exact follows_of_within (noteBytesTransferred_within context.state o n)
      (fun _ he => flying_ignores (he.elim Or.inl fun hc => Or.inr (Or.inl hc))) fun _ _ => h

/-- Every call follows the protocol, and its frame is settled when it returns. -/
theorem program_flies (core : CppCore) (c : ApiCall) :
    Follows flying (fun g _ => g.frame.Settled) (c.program core) { call := c } := by
  have hsettled : Frame.Settled {} := ⟨rfl, rfl⟩
  have habort : ∀ o handle callback, Follows flying (fun g _ => g.frame.Settled)
      (abortCall core o handle callback) { call := c } := by
    intro o handle callback
    refine abortCall_follows (silent_of_quiet flying_quiet) hsettled (fun _ => trivial)
      fun state g1 h1 => ?_
    cases h1
    refine ⟨trivial, fun g2 h2 => ?_⟩
    cases h2
    refine ⟨trivial, fun g3 h3 => ?_⟩
    cases h3
    exact hsettled
  cases c with
  | serialOpen port config callback =>
    refine serialOpen_follows (silent_of_quiet flying_quiet) (fun _ => hsettled)
      (fun _ => trivial) ?_ ?_ ?_
    · intro path handle g' hn _ code
      cases hn
      exact hsettled
    · intro path handle g' hn _ _
      cases hn
      refine ⟨hsettled, fun closed g'' hn' code => ?_⟩
      cases hn'
      exact hsettled
    · intro path handle g' hn _
      cases hn
      refine ⟨trivial, fun state g'' hn' => ?_⟩
      cases hn'
      exact hsettled
  | serialClose handle callback =>
    refine serialClose_follows (silent_of_quiet flying_quiet) (fun _ => hsettled)
      (fun _ => hsettled) ?_ ?_
    · intro _ g' hn
      cases hn
      exact hsettled
    · intro _ g' hn
      cases hn
      refine ⟨trivial, fun g'' hn' => ?_⟩
      cases hn'
      exact hsettled
  | transfer handle timeout_config callback call =>
    exact TransferOutline.program_follows (flown core) handle timeout_config callback call
      ⟨rfl, hsettled⟩
  | serialAbortRead handle callback => exact habort .kRead handle callback
  | serialAbortWrite handle callback => exact habort .kWrite handle callback
  | onState handle callback call =>
    refine call.program_follows (fun e he => ?_) hsettled (fun _ => trivial) ?_
    · rcases he with he | ⟨state, operation, rfl⟩
      · exact flying_quiet e he.quiet
      · exact flying_ignores (Or.inr (Or.inl trivial))
    · intro state g' hn _
      cases hn
      exact hsettled
  | onLine handle callback call =>
    exact call.program_follows (silent_of_quiet flying_quiet) fun _ => hsettled

end cpp_bindings_windows
