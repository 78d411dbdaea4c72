-- The state of one handle and the registry of handles, with the functions of
-- `src/detail` that work on them. Each function here is one atomic step: an
-- atomic exchange, or a section under a mutex.
import Mathlib.Logic.Function.Basic
import SerialBindings.Win32

namespace cpp_bindings_windows

/-- A thread, and the `OVERLAPPED` in the frame of the transfer that it runs. -/
abbrev ThreadId := Nat

structure HandleState where
  bytes_read_total : Int := 0
  bytes_written_total : Int := 0
  abort_read : Bool := false
  abort_write : Bool := false
  pending_read : Option ThreadId := none
  pending_write : Option ThreadId := none
  deriving DecidableEq

namespace HandleState

def abortFlag (state : HandleState) : Operation → Bool
  | .kRead => state.abort_read
  | .kWrite => state.abort_write

def storeAbortFlag (state : HandleState) (operation : Operation) (value : Bool) : HandleState :=
  match operation with
  | .kRead => { state with abort_read := value }
  | .kWrite => { state with abort_write := value }

def pendingOperation (state : HandleState) : Operation → Option ThreadId
  | .kRead => state.pending_read
  | .kWrite => state.pending_write

def storePending (state : HandleState) (operation : Operation) (overlapped : Option ThreadId) :
    HandleState :=
  match operation with
  | .kRead => { state with pending_read := overlapped }
  | .kWrite => { state with pending_write := overlapped }

def total (state : HandleState) : Operation → Int
  | .kRead => state.bytes_read_total
  | .kWrite => state.bytes_written_total

/-- The `fetch_add` of `noteBytesTransferred`. -/
def addTotal (state : HandleState) (operation : Operation) (transferred_bytes : Int) :
    HandleState :=
  match operation with
  | .kRead => { state with bytes_read_total := state.bytes_read_total + transferred_bytes }
  | .kWrite => { state with bytes_written_total := state.bytes_written_total + transferred_bytes }

/-- `consumeAbort`: the old value of the flag, which is then clear. -/
def consumeAbort (state : HandleState) (operation : Operation) : Bool × HandleState :=
  (state.abortFlag operation, state.storeAbortFlag operation false)

/-- The locked section of `startPendingIo`. `completed` and `last_error` are what
`start_operation` and `GetLastError` give when no abort is waiting. -/
def startPendingIo (state : HandleState) (operation : Operation) (overlapped : ThreadId)
    (completed : Bool) (last_error : DWORD) : PendingIoStart × HandleState :=
  let (aborted, state) := state.consumeAbort operation
  if aborted then ({ aborted := true }, state)
  else
    ({ completed, error := if completed then ERROR_SUCCESS else last_error },
      state.storePending operation (some overlapped))

/-- The locked section of `finishPendingIo`. -/
def finishPendingIo (state : HandleState) (operation : Operation) (overlapped : ThreadId) :
    Bool × HandleState :=
  let state := if state.pendingOperation operation = some overlapped
    then state.storePending operation none else state
  state.consumeAbort operation

/-! ## What each function reads and writes -/

variable (s : HandleState) (o o' : Operation)

@[simp] theorem abortFlag_storeAbortFlag (b : Bool) :
    (s.storeAbortFlag o b).abortFlag o' = if o = o' then b else s.abortFlag o' := by
  cases o <;> cases o' <;> rfl

@[simp] theorem pendingOperation_storeAbortFlag (b : Bool) :
    (s.storeAbortFlag o b).pendingOperation o' = s.pendingOperation o' := by
  cases o <;> cases o' <;> rfl

@[simp] theorem abortFlag_storePending (p : Option ThreadId) :
    (s.storePending o p).abortFlag o' = s.abortFlag o' := by
  cases o <;> cases o' <;> rfl

@[simp] theorem pendingOperation_storePending (p : Option ThreadId) :
    (s.storePending o p).pendingOperation o' = if o = o' then p else s.pendingOperation o' := by
  cases o <;> cases o' <;> rfl

@[simp] theorem abortFlag_addTotal (n : Int) : (s.addTotal o n).abortFlag o' = s.abortFlag o' := by
  cases o <;> cases o' <;> rfl

@[simp] theorem pendingOperation_addTotal (n : Int) :
    (s.addTotal o n).pendingOperation o' = s.pendingOperation o' := by
  cases o <;> cases o' <;> rfl

@[simp] theorem total_addTotal (n : Int) :
    (s.addTotal o n).total o' = if o = o' then s.total o' + n else s.total o' := by
  cases o <;> cases o' <;> rfl

@[simp] theorem total_storeAbortFlag (b : Bool) :
    (s.storeAbortFlag o b).total o' = s.total o' := by
  cases o <;> cases o' <;> rfl

@[simp] theorem total_storePending (p : Option ThreadId) :
    (s.storePending o p).total o' = s.total o' := by
  cases o <;> cases o' <;> rfl

/-- A start with the flag set takes the flag and registers nothing. -/
theorem startPendingIo_aborted (ov : ThreadId) (c : Bool) (e : DWORD) (h : s.abortFlag o = true) :
    s.startPendingIo o ov c e = ({ aborted := true }, s.storeAbortFlag o false) := by
  simp [startPendingIo, consumeAbort, h]

/-- A start with the flag clear registers the request, and leaves the flag clear. -/
theorem startPendingIo_registered (ov : ThreadId) (c : Bool) (e : DWORD)
    (h : s.abortFlag o = false) :
    s.startPendingIo o ov c e =
      ({ completed := c, error := if c then ERROR_SUCCESS else e },
        (s.storeAbortFlag o false).storePending o (some ov)) := by
  simp [startPendingIo, consumeAbort, h]

@[simp] theorem finishPendingIo_fst (ov : ThreadId) :
    (s.finishPendingIo o ov).1 = s.abortFlag o := by
  unfold finishPendingIo consumeAbort
  simp only
  split
  · simp
  · rfl

@[simp] theorem finishPendingIo_flag (ov : ThreadId) :
    (s.finishPendingIo o ov).2.abortFlag o' = if o = o' then false else s.abortFlag o' := by
  unfold finishPendingIo consumeAbort
  simp only [abortFlag_storeAbortFlag]
  split
  · rfl
  · split
    · simp
    · rfl

@[simp] theorem finishPendingIo_pending (ov : ThreadId) :
    (s.finishPendingIo o ov).2.pendingOperation o' =
      if o = o' ∧ s.pendingOperation o' = some ov then none else s.pendingOperation o' := by
  unfold finishPendingIo consumeAbort
  simp only [pendingOperation_storeAbortFlag]
  by_cases ho : o = o'
  · subst ho
    by_cases hp : s.pendingOperation o = some ov <;> simp [hp]
  · by_cases hp : s.pendingOperation o = some ov <;> simp [hp, ho]

@[simp] theorem finishPendingIo_total (ov : ThreadId) :
    (s.finishPendingIo o ov).2.total o' = s.total o' := by
  unfold finishPendingIo consumeAbort
  simp only [total_storeAbortFlag]
  split
  · simp
  · rfl

end HandleState

/-! ## The registry -/

/-- `g_handle_states` and the states that its shared pointers own. `next` is the state that
the next `std::make_shared` gives. -/
structure Registry where
  g_handle_states : HANDLE → Option StateRef
  states : StateRef → HandleState
  next : StateRef
  made : ∀ handle state, g_handle_states handle = some state → state < next

namespace Registry

/-- No handle is registered. -/
def empty : Registry := ⟨fun _ => none, fun _ => {}, 0, nofun⟩

def ensureHandleState (r : Registry) (handle : HANDLE) : StateRef × Registry :=
  match r.g_handle_states handle with
  | some state => (state, r)
  | none =>
    (r.next,
      { g_handle_states := Function.update r.g_handle_states handle (some r.next)
        states := Function.update r.states r.next {}
        next := r.next + 1
        made := by
          intro handle' state h
          by_cases hh : handle' = handle
          · rw [hh, Function.update_self] at h
            cases h
            exact Nat.lt_succ_self _
          · rw [Function.update_of_ne hh] at h
            exact Nat.lt_succ_of_lt (r.made _ _ h) })

def removeHandleState (r : Registry) (handle : HANDLE) : Registry :=
  { r with
    g_handle_states := Function.update r.g_handle_states handle none
    made := by
      intro handle' state h
      by_cases hh : handle' = handle
      · rw [hh, Function.update_self] at h
        cases h
      · rw [Function.update_of_ne hh] at h
        exact r.made _ _ h }

/-- The registry after the state `state` changed to `f` of itself. -/
def modify (r : Registry) (state : StateRef) (f : HandleState → HandleState) : Registry :=
  { r with states := Function.update r.states state (f (r.states state)) }

variable (r : Registry) (h : HANDLE) (s : StateRef) (f : HandleState → HandleState)

@[simp] theorem modify_handles : (r.modify s f).g_handle_states = r.g_handle_states := rfl

@[simp] theorem modify_next : (r.modify s f).next = r.next := rfl

@[simp] theorem modify_self : (r.modify s f).states s = f (r.states s) := by
  simp [modify]

theorem modify_states (s' : StateRef) :
    (r.modify s f).states s' = if s' = s then f (r.states s) else r.states s' :=
  Function.update_apply ..

/-- A handle that is registered keeps its state, and nothing changes. -/
theorem ensureHandleState_of_some {s : StateRef} (hs : r.g_handle_states h = some s) :
    r.ensureHandleState h = (s, r) := by
  unfold ensureHandleState
  split
  · rename_i state heq
    rw [hs] at heq
    cases heq
    rfl
  · rename_i heq
    rw [hs] at heq
    cases heq

/-- A handle that is not registered gets a new state, with the number `next`. -/
theorem ensureHandleState_of_none (hn : r.g_handle_states h = none) :
    (r.ensureHandleState h).1 = r.next ∧
      (r.ensureHandleState h).2.g_handle_states =
        Function.update r.g_handle_states h (some r.next) ∧
      (r.ensureHandleState h).2.states = Function.update r.states r.next {} ∧
      (r.ensureHandleState h).2.next = r.next + 1 := by
  unfold ensureHandleState
  split
  · rename_i state heq
    rw [hn] at heq
    cases heq
  · exact ⟨rfl, rfl, rfl, rfl⟩

theorem removeHandleState_self : (r.removeHandleState h).g_handle_states h = none :=
  Function.update_self ..

theorem removeHandleState_of_ne {h h' : HANDLE} (hh : h' ≠ h) :
    (r.removeHandleState h).g_handle_states h' = r.g_handle_states h' :=
  Function.update_of_ne hh ..

end Registry

end cpp_bindings_windows
